import Barycenter.Foundation.Sha256
import Barycenter.Foundation.TextOrder
import Barycenter.Validate.Strings

/-!
# Generated names

A key becomes a name of the engine by replacing the characters that such a name
cannot have.  Where that loses something, a short digest of the key is added.
The names of variables have a limit; a longer one keeps its beginning and ends
in the digest of the whole key.
-/

namespace Barycenter

namespace Conf

open Validate (isWord)

def safeKey (key : String) : String :=
  String.ofList (key.toList.flatMap fun char =>
    if isWord char then [char] else List.replicate (Text.unitsOf char).length '_')

def shortDigest (key : String) : String := String.ofList ((Sha256.hex key).toList.take 8)

def ident (key : String) : String :=
  if safeKey key = key then key else safeKey key ++ "_" ++ shortDigest key

/-- `NGINX_VAR_MAX` -/
def nginxVarMax : Nat := 46

def varName (start key suffix : String) : String :=
  let full := start ++ ident key ++ suffix
  if full.length ≤ nginxVarMax then full
  else
    let room := nginxVarMax - start.length - 1 - (shortDigest key).length - suffix.length
    start ++ String.ofList ((safeKey key).toList.take room) ++ "_" ++ shortDigest key ++ suffix

def upstreamName (poolKey : String) : String := "pool_" ++ ident poolKey

def routeRuleVar (routeKey : String) (index : Nat) : String :=
  varName "bary_rsrc_" routeKey ("_" ++ toString (index + 1))

def ruleLocation (routeKey : String) (pathIndex index : Nat) : String :=
  "@" ++ varName "bary_rule_" routeKey
    ("_" ++ toString pathIndex ++ "_" ++ toString (index + 1))

example : [ident "a_b", varName "bary_src_deny_" "barycenter-internal:http" ""] =
    ["a_b", "bary_src_deny_barycenter_internal_htt_79420b8a"] := by
  decide +kernel

end Conf

end Barycenter
