import Barycenter.Conf.Ast
import Barycenter.Model.Provisional
import Barycenter.Route.HostPattern

/-!
# Texts that users write

The grammars of header names and values, of path prefixes and of hash keys, and
the test whether the pattern of a certificate covers a host.  A text passes a
grammar when there is nothing to say against it.
-/

namespace Barycenter

namespace Validate

open Config

def isAlnum (char : Char) : Bool :=
  ('a' ≤ char && char ≤ 'z') || ('A' ≤ char && char ≤ 'Z') || ('0' ≤ char && char ≤ '9')

def isWord (char : Char) : Bool := isAlnum char || char = '_'

/-- `TOKEN` -/
def isToken (text : List Char) : Bool :=
  text ≠ [] && text.all fun char => isAlnum char || char ∈ "!#$%&'*+-.^_`|~".toList

/-- `ALLOWED_VARIABLES` -/
def allowedVariables : List String :=
  ["host", "scheme", "request_uri", "remote_addr", "remote_port", "server_addr", "server_port",
    "server_name", "http_upgrade", "connection_upgrade", "proxy_add_x_forwarded_for",
    "proxy_protocol_addr", "ssl_preread_server_name", "ssl_preread_protocol"]

def coversHost (pattern host : String) : Bool :=
  pattern = host ||
    (pattern.toList.take 2 = ['*', '.'] &&
      Route.coversOneLabel host.toList (pattern.toList.drop 2))

def validateHeaderName (input : String) : Except String String :=
  if !isToken input.toList then .error ("RFC 9110 token 이 아니다: " ++ JsonText.quoted input)
  else .ok input

/-- The name behind a dollar sign, and the text behind the name. -/
def variableRef : List Char → Option (List Char × List Char)
  | '\x7b' :: rest =>
      match rest.takeWhile isWord, rest.dropWhile isWord with
      | [], _ => none
      | name, '\x7d' :: after => some (name, after)
      | _, _ => none
  | rest =>
      if rest.takeWhile isWord = [] then none
      else some (rest.takeWhile isWord, rest.dropWhile isWord)

/-- What is wrong with the variables of a text; the count bounds its length. -/
def variableFault (input : String) : Nat → List Char → Option String
  | 0, _ | _, [] => none
  | count + 1, '$' :: rest =>
      match variableRef rest with
      | none => some ("변수 참조가 아닌 '$' 가 있다: " ++ JsonText.quoted input)
      | some (name, after) =>
          if String.ofList name ∉ allowedVariables then
            some ("허용되지 않은 변수 참조: $" ++ String.ofList name)
          else variableFault input count after
  | count + 1, _ :: rest => variableFault input count rest

def validateHeaderValue (input : String) : Except String String :=
  if Conf.hasControl input then .error "제어 문자는 쓸 수 없다 (헤더 분리)"
  else
    match variableFault input input.length input.toList with
    | some message => .error message
    | none => .ok input

/-- `PATH_PREFIX` -/
def isPathPrefix (path : List Char) : Bool :=
  path.head? = some '/' &&
    path.tail.all fun char => isAlnum char || char ∈ "-._~!$&'()*+,;=:@/%".toList

def validatePathPrefix (input : String) : Except String String :=
  if !isPathPrefix input.toList then
    .error ("경로 접두사는 '/' 로 시작하는 절대 경로여야 한다: " ++ JsonText.quoted input)
  else .ok input

/-! ## Hash keys -/

/-- A parsed hash key carries the variable of the engine. -/
inductive HashKey where
  | remoteAddr
  | requestUri
  | header (name variableName : String)
  | cookie (name variableName : String)
  deriving DecidableEq, Repr

def protocolClassName : ProtocolClass → String
  | .http => "http"
  | .tcp => "tcp"
  | .udp => "udp"

/-- The kind and the name of `header(name)` or `cookie(name)`. -/
def keyCall (spec : List Char) : Option (Bool × List Char) :=
  let inner (rest : List Char) : Option (List Char) :=
    if rest.getLast? = some ')' && rest.dropLast.all fun char => char ≠ '(' && char ≠ ')' then
      some rest.dropLast
    else none
  if spec.take 7 = "header(".toList then (inner (spec.drop 7)).map (true, ·)
  else if spec.take 7 = "cookie(".toList then (inner (spec.drop 7)).map (false, ·)
  else none

def parseHashKey (protocolClass : ProtocolClass) (spec : String) : Except String HashKey :=
  if spec = "remote_addr" then .ok .remoteAddr
  else if protocolClass ≠ .http then
    .error (protocolClassName protocolClass ++ " 풀은 remote_addr 만 해시 키로 쓸 수 있다")
  else if spec = "request_uri" then .ok .requestUri
  else
    match keyCall spec.toList with
    | none => .error ("알 수 없는 해시 키: " ++ JsonText.quoted spec)
    | some (isHeader, name) =>
        let text := String.ofList name
        if !isToken name then
          .error ((if isHeader then "header" else "cookie") ++ " 이름이 token 이 아니다: " ++ text)
        else if isHeader then
          if !name.all fun char => isAlnum char || char = '-' then
            .error ("헤더 이름이 nginx 변수명이 될 수 없다: " ++ text)
          else
            .ok (.header text ("http_" ++ String.ofList (name.map fun char =>
              if char = '-' then '_' else char.toLower)))
        else if !name.all isWord then
          .error ("쿠키 이름이 nginx 변수명이 될 수 없다: " ++ text)
        else .ok (.cookie text ("cookie_" ++ text))

example : parseHashKey .http "header(X-Api-Key)" = .ok (.header "X-Api-Key" "http_x_api_key") ∧
    (parseHashKey .tcp "request_uri").toOption = none := by
  decide +kernel

end Validate

end Barycenter
