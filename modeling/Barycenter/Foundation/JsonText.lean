import Mathlib.Data.List.Basic

/-!
# Rendering values as JSON text

Only the rendering that diagnostics use: strings with the standard escapes,
numbers, booleans, and objects whose absent fields are left out.
-/

namespace Barycenter

namespace JsonText

def hexDigit (digit : Nat) : Char :=
  if digit < 10 then Char.ofNat (48 + digit) else Char.ofNat (87 + digit)

/-- A control character without a short escape of its own. -/
def unicodeEscape (code : Nat) : String :=
  "\\u00" ++ String.ofList [hexDigit (code / 16), hexDigit (code % 16)]

def escapeChar (char : Char) : String :=
  if char = '"' then "\\\""
  else if char = '\\' then "\\\\"
  else if char = '\n' then "\\n"
  else if char = '\r' then "\\r"
  else if char = '\t' then "\\t"
  else if char.toNat = 8 then "\\b"
  else if char.toNat = 12 then "\\f"
  else if char.toNat < 32 then unicodeEscape char.toNat
  else String.ofList [char]

def quoted (text : String) : String :=
  "\"" ++ String.join (text.toList.map escapeChar) ++ "\""

def bool (value : Bool) : String := if value then "true" else "false"

def field (name : String) (value : Option String) : Option String :=
  value.map fun text => quoted name ++ ":" ++ text

def object (fields : List (Option String)) : String :=
  "\x7b" ++ ",".intercalate (fields.filterMap id) ++ "\x7d"

end JsonText

end Barycenter
