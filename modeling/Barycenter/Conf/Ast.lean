import Barycenter.Foundation.JsonText
import Mathlib.Data.List.DropRight
import Mathlib.Data.List.Basic

/-!
# The configuration tree and its text

Values and nodes are made by constructors that check what they are given, so
every value carries the check it has passed.  Only the serialisation escapes
anything.
-/

namespace Barycenter

namespace Conf

/-! ## Character classes -/

def isControl (char : Char) : Bool := char.toNat < 0x20 || char.toNat = 0x7F

/-- The class `\s` of the language: blanks, line ends and the spaces of Unicode. -/
def isSpace (char : Char) : Bool :=
  let code := char.toNat
  (9 ≤ code && code ≤ 13) || code = 0x20 || code = 0xA0 || code = 0x1680 ||
    (0x2000 ≤ code && code ≤ 0x200A) || code = 0x2028 || code = 0x2029 ||
    code = 0x202F || code = 0x205F || code = 0x3000 || code = 0xFEFF

/-- Characters that end a value or change how it is read. -/
def isDelimiter (char : Char) : Bool :=
  isSpace char || char = ';' || char = '\x7b' || char = '\x7d' || char = '"' ||
    char = '\'' || char = '#'

/-- `NEEDS_QUOTE` -/
def needsQuote (text : String) : Bool :=
  text.toList.any fun char => isDelimiter char || char = '\\'

/-- `CONTROL` -/
def hasControl (text : String) : Bool := text.toList.any isControl

def isNameStart (char : Char) : Bool :=
  ('A' ≤ char && char ≤ 'Z') || ('a' ≤ char && char ≤ 'z') || char = '_'

def isNameChar (char : Char) : Bool :=
  isNameStart char || ('0' ≤ char && char ≤ '9')

/-- `DIRECTIVE_NAME` and `VARIABLE_NAME`, which are the same expression. -/
def isName (text : String) : Bool :=
  match text.toList with
  | [] => false
  | first :: rest => isNameStart first && rest.all isNameChar

def trailingBackslashes (text : String) : Nat :=
  (text.toList.reverse.takeWhile (· = '\\')).length

def regexAllowed (pattern : String) : Bool :=
  !(hasControl pattern || pattern.toList.any isDelimiter) &&
    trailingBackslashes pattern % 2 = 0

/-! ## Numbers -/

/--
A number of the language.  A finite one other than zero is given by its sign,
its shortest decimal digits and the place of the point before the first of
them, as the language defines its text.
-/
inductive JsNumber where
  | zero
  | finite (negative : Bool) (first : Fin 10) (rest : List (Fin 10)) (point : Int)
  | infinite (negative : Bool)
  | notANumber
  deriving DecidableEq, Repr

def JsNumber.isFinite : JsNumber → Bool
  | .zero | .finite .. => true
  | .infinite _ | .notANumber => false

def digitChar (digit : Fin 10) : Char := Char.ofNat (48 + digit.val)

def numeral (number : Nat) : List Char := (toString number).toList

/-- The digits with the point, or with an exponent where the number is too long for it. -/
def decimalText (digits : List Char) (point : Int) : List Char :=
  let count : Int := digits.length
  if count ≤ point ∧ point ≤ 21 then
    digits ++ List.replicate (point - count).toNat '0'
  else if 0 < point ∧ point ≤ 21 then
    digits.take point.toNat ++ '.' :: digits.drop point.toNat
  else if -6 < point ∧ point ≤ 0 then
    '0' :: '.' :: (List.replicate (-point).toNat '0' ++ digits)
  else
    let sign := if 0 < point - 1 then '+' else '-'
    let exponent := 'e' :: sign :: numeral (point - 1).natAbs
    match digits with
    | first :: second :: rest => first :: '.' :: second :: rest ++ exponent
    | _ => digits ++ exponent

def JsNumber.text : JsNumber → String
  | .zero => "0"
  | .finite negative first rest point =>
      String.ofList ((if negative then ['-'] else []) ++
        decimalText ((first :: rest).map digitChar) point)
  | .infinite negative => if negative then "-Infinity" else "Infinity"
  | .notANumber => "NaN"

/-! ## Values -/

inductive ConfValue where
  | literal (text : String) (printable : hasControl text = false)
  | number (value : JsNumber) (finite : value.isFinite = true)
  | variableNamed (name : String) (named : isName name = true)
  | regex (pattern : String) (allowed : regexAllowed pattern = true)
  deriving DecidableEq, Repr

/-! ## Nodes -/

/-- How deep in braces the code ends; a closing brace too many stops the count. -/
def braceDepth : List Char → Int → Int
  | [], depth => depth
  | char :: rest, depth =>
      let deeper := if char = '\x7b' then depth + 1
        else if char = '\x7d' then depth - 1
        else depth
      if deeper < 0 then deeper else braceDepth rest deeper

inductive ConfNode where
  | directive (name : String) (named : isName name = true) (args : List ConfValue)
  | block (name : String) (named : isName name = true) (args : List ConfValue)
      (children : List ConfNode)
  | entry (key value : ConfValue)
  | lua (name : String) (named : isName name = true) (body : String)
      (balanced : braceDepth body.toList 0 = 0)
  deriving Repr

/-! ## Serialisation -/

/-- Every occurrence of a character replaced by a text. -/
def replaceChar (char : Char) (replacement : List Char) (text : List Char) : List Char :=
  text.flatMap fun other => if other = char then replacement else [other]

def renderValue : ConfValue → String
  | .number value _ => value.text
  | .variableNamed name _ => "$" ++ name
  | .regex pattern _ => pattern
  | .literal text _ =>
      if 0 < text.length ∧ needsQuote text = false then text
      else
        let slashes := replaceChar '\\' ['\\', '\\'] text.toList
        String.ofList ('"' :: replaceChar '"' ['\\', '"'] slashes ++ ['"'])

def pad (depth : Nat) : String := String.ofList (List.replicate (4 * depth) ' ')

/-- The lines of a Lua body, without the blank text around them. -/
def luaLines (body : String) : List (List Char) :=
  ((body.toList.dropWhile (· = '\n')).rdropWhile isSpace).splitOn '\n'

def isBlankLine (line : List Char) : Bool := line.all isSpace

/-- The indentation that all lines with text have in common. -/
def luaStrip (lines : List (List Char)) : Nat :=
  ((lines.filter fun line => !isBlankLine line).map fun line =>
    (line.takeWhile isSpace).length).min?.getD 0

def serializeLuaLine (depth strip : Nat) (line : List Char) : String :=
  if isBlankLine line then "\n"
  else pad (depth + 1) ++ String.ofList (line.drop strip) ++ "\n"

def serializeLua (depth : Nat) (name body : String) : String :=
  let lines := luaLines body
  pad depth ++ name ++ " \x7b\n" ++
    String.join (lines.map (serializeLuaLine depth (luaStrip lines))) ++
    pad depth ++ "\x7d\n"

/-- A name and its arguments with single spaces between them. -/
def head (name : String) (args : List ConfValue) : String :=
  " ".intercalate (name :: args.map renderValue)

mutual

def serializeNode (depth : Nat) : ConfNode → String
  | .entry key value => pad depth ++ renderValue key ++ " " ++ renderValue value ++ ";\n"
  | .lua name _ body _ => serializeLua depth name body
  | .directive name _ args => pad depth ++ head name args ++ ";\n"
  | .block name _ args children =>
      pad depth ++ head name args ++ " \x7b\n" ++ serializeAt (depth + 1) children ++
        pad depth ++ "\x7d\n"

def serializeAt (depth : Nat) : List ConfNode → String
  | [] => ""
  | first :: rest => serializeNode depth first ++ serializeAt depth rest

end

def serialize (nodes : List ConfNode) : String := serializeAt 0 nodes

end Conf

end Barycenter
