import Barycenter.Foundation.JsonText
import Barycenter.Foundation.OrderedMap

/-!
# JSON values

A parsed JSON document, the text it is sent as, and the two things a decoder asks
of a value: what kind of value it is, and what one of its fields holds.  Text that
was made from a value parses to that value again, so a message is its value, and
its text matters for its size only.
-/

namespace Barycenter

inductive Json where
  | null
  | bool (value : Bool)
  | number (literal : String)
  | string (value : String)
  | array (elements : List Json)
  | object (fields : List (String × Json))
deriving Repr

namespace Json

mutual

def text : Json → String
  | .null => "null"
  | .bool value => JsonText.bool value
  | .number literal => literal
  | .string value => JsonText.quoted value
  | .array elements => "[" ++ ",".intercalate (elementTexts elements) ++ "]"
  | .object fields => "\x7b" ++ ",".intercalate (fieldTexts fields) ++ "\x7d"

def elementTexts : List Json → List String
  | [] => []
  | element :: rest => element.text :: elementTexts rest

def fieldTexts : List (String × Json) → List String
  | [] => []
  | (name, value) :: rest =>
      (JsonText.quoted name ++ ":" ++ value.text) :: fieldTexts rest

end

def bytes (value : Json) : Nat := value.text.utf8ByteSize

/-- A field of an object.  Other values have no fields of their own. -/
def field? : Json → String → Option Json
  | .object fields, name => OrderedMap.lookup fields name
  | _, _ => none

/-- What `typeof` says, with `null` and arrays told apart from objects. -/
def typeName : Option Json → String
  | none => "undefined"
  | some .null => "null"
  | some (.bool _) => "boolean"
  | some (.number _) => "number"
  | some (.string _) => "string"
  | some (.array _) => "array"
  | some (.object _) => "object"

/-- An object literal: a field that is undefined is left out of it. -/
def record (fields : List (String × Option Json)) : Json :=
  .object (fields.filterMap fun entry => entry.2.map (entry.1, ·))

def strings (values : List String) : Json :=
  .array (values.map .string)

def ofMap {α : Type} (encode : α → Json) (map : OrderedMap String α) : Json :=
  .object (map.mapValues encode).entries

end Json

end Barycenter
