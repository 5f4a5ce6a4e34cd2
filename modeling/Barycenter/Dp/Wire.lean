import Barycenter.Dp.AgentState
import Barycenter.Foundation.Json

/-!
# The envelope as a message

An operation travels to a remote agent as JSON and is read back there by decoders
that trust nothing: fields have their types, numbers are decimal strings, no field
is unknown, and the name of a generation can be a piece of a path.  A message that
cannot be read is a rejection, because sending it again would not help.
-/

namespace Barycenter.Dp

namespace Numeral

def read (digits : String) : Numeral :=
  let value := Nat.ofDigitChars 10 digits.toList 0
  { padding := digits.length - (toString value).length, value := value }

theorem toList_text (numeral : Numeral) :
    numeral.text.toList =
      List.replicate numeral.padding '0' ++ Nat.toDigits 10 numeral.value := by
  simp [text]

@[simp] theorem read_text (numeral : Numeral) : read numeral.text = numeral := by
  have value : Nat.ofDigitChars 10 numeral.text.toList 0 = numeral.value := by
    rw [toList_text, Nat.ofDigitChars_append, Nat.ofDigitChars_replicate_zero, Nat.mul_zero,
      Nat.ofDigitChars_ten_toDigits]
  have long : numeral.text.length =
      numeral.padding + (toString numeral.value).length := by
    simp [text]
  simp only [read, value, long, Nat.add_sub_cancel]

/-- `/^[0-9]+$/` -/
def isDecimal (text : String) : Bool :=
  text ≠ "" && text.toList.all Char.isDigit

@[simp] theorem isDecimal_text (numeral : Numeral) : isDecimal numeral.text = true := by
  have digits : ∀ char ∈ numeral.text.toList, char.isDigit = true := by
    intro char member
    rw [toList_text, List.mem_append] at member
    rcases member with padded | digit
    · rw [(List.mem_replicate.mp padded).2]
      decide
    · exact Nat.isDigit_of_mem_toDigits (b := 10) (by decide) (by decide) digit
  have filled : numeral.text ≠ "" := by
    intro empty
    have none := toList_text numeral
    rw [empty] at none
    simp [Nat.toDigits_ne_nil] at none
  rw [isDecimal, List.all_eq_true.mpr digits]
  simpa using filled

end Numeral

/-- `/^[A-Za-z0-9][A-Za-z0-9._-]{0,62}$/` -/
def isPathSegment (name : String) : Bool :=
  match name.toList with
  | [] => false
  | first :: rest =>
      first.isAlphanum && rest.length ≤ 62 &&
        rest.all fun char => char.isAlphanum || char = '.' || char = '_' || char = '-'

def pathSegmentRule : String :=
  "영숫자로 시작하고 영숫자·점·밑줄·하이픈만, 63 자까지다"

namespace Wire

/-! ## What is sent -/

def coordinateJson (coordinate : RawCoordinate) : Json :=
  .record
    [("activationEpoch", some (.string coordinate.activationEpoch.text)),
      ("membershipRevision", some (.string coordinate.membershipRevision.text))]

def planeTargetJson (declared : PlaneTarget) : Json :=
  .record
    [("expectedCurrent", some (coordinateJson declared.expectedCurrent)),
      ("target", some (coordinateJson declared.target)),
      ("payloadDigest", some (.string declared.payloadDigest))]

def operationJson (op : ApplyOperation) : Json :=
  .record
    [("leaderToken", some (.string op.leaderToken.text)),
      ("operationId", some (.string op.operationId)),
      ("transitionId", some (.string op.transitionId)),
      ("affectedPlanes", some (.array (op.affectedPlanes.map fun plane => .string plane.text))),
      ("targetGeneration", some (.string op.targetGeneration)),
      ("generationDigest", some (.string op.generationDigest)),
      ("planes", some (.record
        [("http", op.planes.http.map planeTargetJson),
          ("stream", op.planes.stream.map planeTargetJson)]))]

def slotsJson (slots : OrderedMap String (List String)) : Json :=
  .ofMap .strings slots

/-! ## How it is read -/

def reject {α : Type} (what why : String) : Except DpRejection α :=
  .error { kind := .malformedRequest, message := s!"{what}: {why}" }

def str (value : Option Json) (what : String) : Except DpRejection String :=
  match value with
  | some (.string text) => .ok text
  | other =>
      let got := Json.typeName other
      reject what s!"문자열이어야 한다 (받은 것: {got})"

def fieldsOf (value : Option Json) (what : String) :
    Except DpRejection (List (String × Json)) :=
  match value with
  | some (.object fields) => .ok fields
  | other =>
      let got := Json.typeName other
      reject what s!"객체여야 한다 (받은 것: {got})"

def elementsOf (value : Option Json) (what : String) : Except DpRejection (List Json) :=
  match value with
  | some (.array elements) => .ok elements
  | other =>
      let got := Json.typeName other
      reject what s!"배열이어야 한다 (받은 것: {got})"

def only (fields : List (String × Json)) (keys : List String) (what : String) :
    Except DpRejection Unit :=
  let extra := (fields.map Prod.fst).filter fun name => !keys.contains name
  if extra ≠ [] then
    let listed := ", ".intercalate extra
    reject what s!"모르는 필드가 있다: {listed}"
  else .ok ()

def decimal (value : Option Json) (what : String) : Except DpRejection Numeral := do
  let text ← str value what
  if !Numeral.isDecimal text then
    let got := JsonText.quoted text
    reject what s!"10진 정수 문자열이어야 한다: {got}"
  return Numeral.read text

def decodeLeaderToken (value : Option Json) : Except DpRejection Numeral :=
  decimal value "leaderToken"

def decodeEpoch (value : Option Json) : Except DpRejection Numeral :=
  decimal value "epoch"

def decodePlane (value : Option Json) (what : String) : Except DpRejection Plane := do
  let text ← str value what
  match Plane.all.find? fun plane => plane.text = text with
  | some plane => return plane
  | none =>
      let got := JsonText.quoted text
      reject what s!"'http' 이나 'stream' 이어야 한다: {got}"

/-- Elements in order, each under its own index; the first that cannot be read
ends it. -/
def decodeElements {α : Type} (decode : Option Json → String → Except DpRejection α)
    (what : String) : List Json → Nat → Except DpRejection (List α)
  | [], _ => .ok []
  | element :: rest, index => do
      let first ← decode (some element) s!"{what}[{index}]"
      let others ← decodeElements decode what rest (index + 1)
      return first :: others

def decodeSlotEntries (what : String) :
    List (String × Json) → Except DpRejection (List (String × List String))
  | [] => .ok []
  | (name, list) :: rest => do
      let elements ← elementsOf (some list) s!"{what}.{name}"
      let peers ← decodeElements str s!"{what}.{name}" elements 0
      let others ← decodeSlotEntries what rest
      return (name, peers) :: others

def decodeSlots (value : Option Json) (what : String) :
    Except DpRejection (OrderedMap String (List String)) := do
  let fields ← fieldsOf value what
  let entries ← decodeSlotEntries what fields
  return OrderedMap.fromEntries entries

def decodeCoordinate (value : Option Json) (what : String) :
    Except DpRejection RawCoordinate := do
  let fields ← fieldsOf value what
  only fields ["activationEpoch", "membershipRevision"] what
  let activationEpoch ←
    decimal (OrderedMap.lookup fields "activationEpoch") s!"{what}.activationEpoch"
  let membershipRevision ←
    decimal (OrderedMap.lookup fields "membershipRevision") s!"{what}.membershipRevision"
  return { activationEpoch, membershipRevision }

def decodePlaneTarget (value : Option Json) (what : String) :
    Except DpRejection PlaneTarget := do
  let fields ← fieldsOf value what
  only fields ["expectedCurrent", "target", "payloadDigest"] what
  let expectedCurrent ←
    decodeCoordinate (OrderedMap.lookup fields "expectedCurrent") s!"{what}.expectedCurrent"
  let target ← decodeCoordinate (OrderedMap.lookup fields "target") s!"{what}.target"
  let payloadDigest ← str (OrderedMap.lookup fields "payloadDigest") s!"{what}.payloadDigest"
  return { expectedCurrent, target, payloadDigest }

def decodeGenerationName (value : Option Json) (what : String) :
    Except DpRejection String := do
  let text ← str value what
  if !isPathSegment text then
    let got := JsonText.quoted text
    reject what s!"{pathSegmentRule}: {got} (세대 이름은 경로 조각이 된다)"
  return text

def decodePresentTarget (fields : List (String × Json)) (plane : Plane) (what : String) :
    Except DpRejection (Option PlaneTarget) :=
  match OrderedMap.lookup fields plane.text with
  | none => .ok none
  | some declared => do
      let read ← decodePlaneTarget (some declared) what
      return some read

/-- Only whether the operation can be read is decided here.  Whether its planes
agree, and whether its coordinates are current, is for the agent to judge. -/
def decodeApplyOperation (value : Option Json) (what : String) :
    Except DpRejection ApplyOperation := do
  let fields ← fieldsOf value what
  only fields ["leaderToken", "operationId", "transitionId", "affectedPlanes", "planes",
    "targetGeneration", "generationDigest"] what
  let rawPlanes ← elementsOf (OrderedMap.lookup fields "affectedPlanes") s!"{what}.affectedPlanes"
  let affectedPlanes ← decodeElements decodePlane s!"{what}.affectedPlanes" rawPlanes 0
  let rawTargets ← fieldsOf (OrderedMap.lookup fields "planes") s!"{what}.planes"
  only rawTargets ["http", "stream"] s!"{what}.planes"
  let http ← decodePresentTarget rawTargets .http s!"{what}.planes.http"
  let stream ← decodePresentTarget rawTargets .stream s!"{what}.planes.stream"
  let leaderToken ← decimal (OrderedMap.lookup fields "leaderToken") s!"{what}.leaderToken"
  let operationId ← str (OrderedMap.lookup fields "operationId") s!"{what}.operationId"
  let transitionId ← str (OrderedMap.lookup fields "transitionId") s!"{what}.transitionId"
  let targetGeneration ←
    decodeGenerationName (OrderedMap.lookup fields "targetGeneration") s!"{what}.targetGeneration"
  let generationDigest ←
    str (OrderedMap.lookup fields "generationDigest") s!"{what}.generationDigest"
  return { leaderToken, operationId, transitionId, affectedPlanes, planes := { http, stream },
           targetGeneration, generationDigest }

/-! ## What was sent is what is read -/

@[simp] theorem str_string (text what : String) :
    str (some (.string text)) what = .ok text := rfl

@[simp] theorem decimal_text (numeral : Numeral) (what : String) :
    decimal (some (.string numeral.text)) what = .ok numeral := by
  simp [decimal, bind, Except.bind, pure, Except.pure]

@[simp] theorem decodePlane_text (plane : Plane) (what : String) :
    decodePlane (some (.string plane.text)) what = .ok plane := by
  cases plane <;> rfl

theorem decodeElements_map {α : Type} {decode : Option Json → String → Except DpRejection α}
    {encode : α → Json}
    (inverse : ∀ value what, decode (some (encode value)) what = .ok value)
    (what : String) (values : List α) (index : Nat) :
    decodeElements decode what (values.map encode) index = .ok values := by
  induction values generalizing index with
  | nil => rfl
  | cons value rest induction =>
      simp [decodeElements, inverse, induction, bind, Except.bind, pure, Except.pure]

theorem decodeSlotEntries_strings (what : String) (entries : List (String × List String)) :
    decodeSlotEntries what (entries.map fun entry => (entry.1, Json.strings entry.2)) =
      .ok entries := by
  induction entries with
  | nil => rfl
  | cons entry rest induction =>
      obtain ⟨name, peers⟩ := entry
      have read : ∀ what, decodeElements str what (peers.map Json.string) 0 = .ok peers :=
        fun what => decodeElements_map str_string what peers 0
      rw [List.map_cons, decodeSlotEntries, induction]
      simp [Json.strings, elementsOf, read, bind, Except.bind, pure, Except.pure]

theorem decodeSlots_slotsJson (slots : OrderedMap String (List String)) (what : String) :
    decodeSlots (some (slotsJson slots)) what = .ok slots := by
  simp [decodeSlots, slotsJson, Json.ofMap, OrderedMap.mapValues, fieldsOf,
    decodeSlotEntries_strings, bind, Except.bind, pure, Except.pure]

@[simp] theorem decodeCoordinate_json (coordinate : RawCoordinate) (what : String) :
    decodeCoordinate (some (coordinateJson coordinate)) what = .ok coordinate := by
  simp [decodeCoordinate, coordinateJson, Json.record, fieldsOf, only, OrderedMap.lookup,
    bind, Except.bind, pure, Except.pure]

@[simp] theorem decodePlaneTarget_json (declared : PlaneTarget) (what : String) :
    decodePlaneTarget (some (planeTargetJson declared)) what = .ok declared := by
  simp [decodePlaneTarget, planeTargetJson, Json.record, fieldsOf, only, OrderedMap.lookup,
    bind, Except.bind, pure, Except.pure]

def targetFields (planes : PerPlane (Option PlaneTarget)) : List (String × Json) :=
  [("http", planes.http.map planeTargetJson),
    ("stream", planes.stream.map planeTargetJson)].filterMap
      fun entry => entry.2.map (entry.1, ·)

theorem decodePresentTarget_fields (planes : PerPlane (Option PlaneTarget)) (plane : Plane)
    (what : String) :
    decodePresentTarget (targetFields planes) plane what = .ok (planes.get plane) := by
  obtain ⟨http, stream⟩ := planes
  cases plane <;> cases http <;> cases stream <;>
    simp [decodePresentTarget, targetFields, OrderedMap.lookup, Plane.text, PerPlane.get,
      bind, Except.bind, pure, Except.pure]

theorem only_of_known {fields : List (String × Json)} {keys : List String} (what : String)
    (known : ∀ name ∈ fields.map Prod.fst, name ∈ keys) : only fields keys what = .ok () := by
  have noExtra : (fields.map Prod.fst).filter (fun name => !keys.contains name) = [] := by
    rw [List.filter_eq_nil_iff]
    intro name member
    simp [known name member]
  rw [only, noExtra]
  rfl

theorem targetFields_known (planes : PerPlane (Option PlaneTarget)) :
    ∀ name ∈ (targetFields planes).map Prod.fst, name ∈ ["http", "stream"] := by
  obtain ⟨http, stream⟩ := planes
  cases http <;> cases stream <;> simp [targetFields]

/-- An operation is read back as it was sent, up to the check of the name of its
generation. -/
theorem decodeApplyOperation_json (op : ApplyOperation) (what : String) :
    decodeApplyOperation (some (operationJson op)) what =
      (decodeGenerationName (some (.string op.targetGeneration)) s!"{what}.targetGeneration").map
        fun name => { op with targetGeneration := name } := by
  have planes : Json.record
      [("http", op.planes.http.map planeTargetJson),
        ("stream", op.planes.stream.map planeTargetJson)] = .object (targetFields op.planes) :=
    rfl
  have affected : ∀ what, decodeElements decodePlane what
      (op.affectedPlanes.map fun plane => .string plane.text) 0 = .ok op.affectedPlanes :=
    fun what => decodeElements_map decodePlane_text what op.affectedPlanes 0
  have onlyPlanes : ∀ what, only (targetFields op.planes) ["http", "stream"] what = .ok () :=
    fun what => only_of_known what (targetFields_known op.planes)
  rw [decodeApplyOperation, operationJson, planes]
  simp only [Json.record, List.filterMap_cons, List.filterMap_nil, Option.map_some, fieldsOf,
    bind, Except.bind]
  rw [only_of_known what (by simp)]
  simp [OrderedMap.lookup, elementsOf, affected, onlyPlanes, decodePresentTarget_fields, pure,
    Except.pure]
  cases decodeGenerationName (some (.string op.targetGeneration))
    s!"{what}.targetGeneration" <;> rfl

theorem decodeGenerationName_named {name : String} (what : String)
    (named : isPathSegment name = true) :
    decodeGenerationName (some (.string name)) what = .ok name := by
  simp [decodeGenerationName, named, bind, Except.bind, pure, Except.pure]

theorem decodeGenerationName_unnamed {name : String} (what : String)
    (unnamed : isPathSegment name = false) :
    ∃ message, decodeGenerationName (some (.string name)) what =
      .error { kind := .malformedRequest, message := message } := by
  simp [decodeGenerationName, unnamed, reject, bind, Except.bind]

theorem decodeApplyOperation_named {op : ApplyOperation} (what : String)
    (named : isPathSegment op.targetGeneration = true) :
    decodeApplyOperation (some (operationJson op)) what = .ok op := by
  rw [decodeApplyOperation_json, decodeGenerationName_named _ named]
  rfl

theorem decodeApplyOperation_unnamed {op : ApplyOperation} (what : String)
    (unnamed : isPathSegment op.targetGeneration = false) :
    ∃ message, decodeApplyOperation (some (operationJson op)) what =
      .error { kind := .malformedRequest, message := message } := by
  obtain ⟨message, refused⟩ :=
    decodeGenerationName_unnamed s!"{what}.targetGeneration" unnamed
  exact ⟨message, by rw [decodeApplyOperation_json, refused]; rfl⟩

end Wire

end Barycenter.Dp
