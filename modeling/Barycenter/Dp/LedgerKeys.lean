import Barycenter.Dp.AgentKeys
import Barycenter.Dp.Wire

/-!
# Which requests share a cell of the ledgers

The keys of the ledgers join free text with colons, and the canonical text joins
it with bars.  Two requests share a cell of a ledger exactly when they are on one
plane and their ids read the same once they are joined; in front of the format
without tokens, a token may also be read as the end of an id.  Two requests have
one canonical text exactly when their fields read the same between bars.
-/

namespace Barycenter.Dp

open DelimitedText

/-- The cells of the ledger of finished transitions that a request looks up. -/
def terminalCells (op : OperationTuple) : List String :=
  [transitionKey op.identity op.plane, legacyTerminalKey op.identity op.plane]

/-- The cells of the ledger of answers that the steps of a request use. -/
def completedCells (op : OperationTuple) : List String :=
  [key op .reserve, key op .stage, key op .commit, key op .health]

def KeysInjective (left right : OperationTuple) : Prop :=
  left ≠ right →
    (terminalCells left).Disjoint (terminalCells right) ∧
    (completedCells left).Disjoint (completedCells right) ∧
    canonical left ≠ canonical right

def joinedIds (op : OperationTuple) : String :=
  op.operationId ++ ":" ++ op.transitionId

def joinedName (op : OperationTuple) : String :=
  joinedIds op ++ ":" ++ toString op.leaderToken

/-- The fields behind the token with bars between them. -/
def barred (op : OperationTuple) : String :=
  "|".intercalate
    [op.operationId, op.transitionId, op.plane.text,
      toString op.expectedCurrent.activationEpoch,
      toString op.expectedCurrent.membershipRevision,
      toString op.target.activationEpoch,
      toString op.target.membershipRevision,
      op.payloadDigest, op.targetGeneration, op.generationDigest]

/-- The ids of the requests cannot be confused, nor an id with an id and a token. -/
def IdsApart (left right : OperationTuple) : Prop :=
  left.plane ≠ right.plane ∨
    joinedIds left ≠ joinedIds right ∧ joinedName left ≠ joinedIds right ∧
      joinedIds left ≠ joinedName right

def FieldsApart (left right : OperationTuple) : Prop :=
  left.leaderToken ≠ right.leaderToken ∨ barred left ≠ barred right

theorem terminalCells_layout (op : OperationTuple) :
    (transitionKey op.identity op.plane).toList =
        (joinedName op).toList ++ ':' :: op.plane.text.toList ∧
      (legacyTerminalKey op.identity op.plane).toList =
        (joinedIds op).toList ++ ':' :: op.plane.text.toList := by
  constructor
  · rw [transitionKey_layout]
    simp [joinedName, joinedIds, OperationTuple.identity]
  · rw [legacyTerminalKey_layout]
    simp [joinedIds, OperationTuple.identity]

theorem behind_plane {left right : String} {plane other : Plane} :
    left.toList ++ ':' :: plane.text.toList = right.toList ++ ':' :: other.text.toList ↔
      left = right ∧ plane = other := by
  constructor
  · intro same
    have noColon := Plane.separator_notMem_text ':' (by decide)
    obtain ⟨fronts, planes⟩ := split_at_last_separator (noColon _) (noColon _) same
    exact ⟨String.toList_inj.mp fronts, Plane.text_injective (String.toList_inj.mp planes)⟩
  · rintro ⟨rfl, rfl⟩
    rfl

theorem joinedIds_of_joinedName {left right : OperationTuple}
    (same : joinedName left = joinedName right) : joinedIds left = joinedIds right := by
  have free : ∀ number : Nat, ':' ∉ (toString number).toList :=
    separator_notMem_numeral (by decide)
  have texts := congrArg String.toList same
  simp only [joinedName, String.toList_append] at texts
  have shape : ∀ (front back : List Char), front ++ ":".toList ++ back = front ++ ':' :: back := by
    intro front back
    simp
  rw [shape, shape] at texts
  exact String.toList_inj.mp (split_at_last_separator (free _) (free _) texts).1

theorem terminalCells_disjoint_iff (left right : OperationTuple) :
    (terminalCells left).Disjoint (terminalCells right) ↔ IdsApart left right := by
  obtain ⟨leftKey, leftLegacy⟩ := terminalCells_layout left
  obtain ⟨rightKey, rightLegacy⟩ := terminalCells_layout right
  have read : ∀ {cell other front back : String},
      cell.toList = front.toList ++ ':' :: left.plane.text.toList →
      other.toList = back.toList ++ ':' :: right.plane.text.toList →
        (cell = other ↔ front = back ∧ left.plane = right.plane) := by
    intro cell other front back leftCell rightCell
    rw [← String.toList_inj, leftCell, rightCell, behind_plane]
  simp only [terminalCells, List.disjoint_cons_left, List.mem_cons, List.not_mem_nil, or_false,
    not_or, List.disjoint_nil_left, and_true, read leftKey rightKey, read leftKey rightLegacy,
    read leftLegacy rightKey, read leftLegacy rightLegacy]
  constructor
  · rintro ⟨⟨-, crossed⟩, turned, legacy⟩
    by_cases plane : left.plane = right.plane
    · exact .inr ⟨fun same => legacy ⟨same, plane⟩, fun same => crossed ⟨same, plane⟩,
        fun same => turned ⟨same, plane⟩⟩
    · exact .inl plane
  · rintro (plane | ⟨ids, crossed, turned⟩)
    · exact ⟨⟨fun same => plane same.2, fun same => plane same.2⟩, fun same => plane same.2,
        fun same => plane same.2⟩
    · exact ⟨⟨fun same => ids (joinedIds_of_joinedName same.1), fun same => crossed same.1⟩,
        fun same => turned same.1, fun same => ids same.1⟩

theorem mem_completedCells {op : OperationTuple} {cell : String} :
    cell ∈ completedCells op ↔ ∃ step, key op step = cell := by
  simp only [completedCells, List.mem_cons, List.not_mem_nil, or_false]
  constructor
  · rintro (rfl | rfl | rfl | rfl)
    · exact ⟨_, rfl⟩
    · exact ⟨_, rfl⟩
    · exact ⟨_, rfl⟩
    · exact ⟨_, rfl⟩
  · rintro ⟨step, rfl⟩
    cases step <;> simp

theorem key_eq (op : OperationTuple) (step : Step) :
    (key op step).toList =
      (transitionKey op.identity op.plane).toList ++ ':' :: step.text.toList := by
  rw [key_layout, transitionKey_layout]
  simp [OperationTuple.identity]

theorem completedCells_disjoint {left right : OperationTuple} (apart : IdsApart left right) :
    (completedCells left).Disjoint (completedCells right) := by
  intro cell ofLeft ofRight
  obtain ⟨step, leftKey⟩ := mem_completedCells.mp ofLeft
  obtain ⟨other, rightKey⟩ := mem_completedCells.mp ofRight
  have same := congrArg String.toList (leftKey.trans rightKey.symm)
  rw [key_eq, key_eq] at same
  have transitions := (split_at_last_separator (Step.separator_notMem_text step)
    (Step.separator_notMem_text other) same).1
  have ofTerminal : transitionKey left.identity left.plane ∈ terminalCells right := by
    rw [String.toList_inj.mp transitions]
    exact List.mem_cons_self
  exact (terminalCells_disjoint_iff left right).mpr apart List.mem_cons_self ofTerminal

theorem canonical_ne_iff (left right : OperationTuple) :
    canonical left ≠ canonical right ↔ FieldsApart left right := by
  have layout : ∀ op : OperationTuple, (canonical op).toList =
      (toString op.leaderToken).toList ++ '|' :: (barred op).toList := by
    intro op
    simp [canonical, barred]
  have free : ∀ number : Nat, '|' ∉ (toString number).toList :=
    separator_notMem_numeral (by decide)
  rw [FieldsApart, ← not_and_or, ne_eq, ← String.toList_inj, layout, layout]
  refine not_congr ⟨fun same => ?_, ?_⟩
  · obtain ⟨tokens, rest⟩ := split_at_separator (free _) (free _) same
    exact ⟨numeral_injective tokens, String.toList_inj.mp rest⟩
  · rintro ⟨tokens, rest⟩
    rw [tokens, rest]

/-! ## Requests without separators in their texts -/

theorem ledger_keys_injective_iff (left right : OperationTuple) :
    KeysInjective left right ↔ (left ≠ right → IdsApart left right ∧ FieldsApart left right) := by
  refine forall_congr' fun _ => ?_
  constructor
  · rintro ⟨terminal, -, texts⟩
    exact ⟨(terminalCells_disjoint_iff left right).mp terminal,
      (canonical_ne_iff left right).mp texts⟩
  · rintro ⟨ids, fields⟩
    exact ⟨(terminalCells_disjoint_iff left right).mpr ids, completedCells_disjoint ids,
      (canonical_ne_iff left right).mpr fields⟩

/-- An operation on the plane `http`, with these ids and digests. -/
def operationWith (operationId transitionId payloadDigest generationDigest : String) :
    ApplyOperation :=
  { leaderToken := .ofNat 7
    operationId := operationId
    transitionId := transitionId
    affectedPlanes := [.http]
    planes :=
      { http := some
          { expectedCurrent := ⟨.ofNat 0, .ofNat 0⟩
            target := ⟨.ofNat 1, .ofNat 1⟩
            payloadDigest := payloadDigest }
        stream := none }
    targetGeneration := "g1"
    generationDigest := generationDigest }

/-- The request is what the decoder makes of some message. -/
def Decoded (request : OperationTuple) : Prop :=
  ∃ message op, Wire.decodeApplyOperation (some message) "op" = .ok op ∧
    tupleFor op request.plane = .ok request

theorem decoded_operationWith (operationId transitionId payloadDigest generationDigest : String) :
    ∃ request, Decoded request ∧
      tupleFor (operationWith operationId transitionId payloadDigest generationDigest) .http =
        .ok request := by
  have named : isPathSegment "g1" = true := by decide +kernel
  have read : ∀ op : ApplyOperation, op.targetGeneration = "g1" →
      Wire.decodeApplyOperation (some (Wire.operationJson op)) "op" = .ok op := by
    rintro ⟨_, _, _, _, _, _, _⟩ rfl
    rw [Wire.decodeApplyOperation_json, Wire.decodeGenerationName_named _ named]
    rfl
  exact ⟨_, ⟨_, operationWith operationId transitionId payloadDigest generationDigest,
    read _ rfl, rfl⟩, rfl⟩

/-- A colon moves from one id to the other, and a bar from one digest to the other. -/
theorem separators_in_ids_confuse :
    (∃ left right, Decoded left ∧ Decoded right ∧ left.operationId = "a" ∧
      right.operationId = "a:b" ∧ ¬ (completedCells left).Disjoint (completedCells right) ∧
      ¬ KeysInjective left right) ∧
    ∃ left right, Decoded left ∧ Decoded right ∧ left ≠ right ∧
      canonical left = canonical right := by
  constructor
  · obtain ⟨left, leftDecoded, leftTuple⟩ := decoded_operationWith "a" "b:c" "p" "d"
    obtain ⟨right, rightDecoded, rightTuple⟩ := decoded_operationWith "a:b" "c" "p" "d"
    cases leftTuple
    cases rightTuple
    refine ⟨_, _, leftDecoded, rightDecoded, rfl, rfl, ?_, ?_⟩
    · exact fun disjoint => disjoint List.mem_cons_self (by decide +kernel)
    · intro injective
      obtain ⟨terminal, -, -⟩ := injective (by decide +kernel)
      exact terminal List.mem_cons_self (by decide +kernel)
  · obtain ⟨left, leftDecoded, leftTuple⟩ := decoded_operationWith "a" "b" "p" "g1|d"
    obtain ⟨right, rightDecoded, rightTuple⟩ := decoded_operationWith "a" "b" "p|g1" "d"
    cases leftTuple
    cases rightTuple
    exact ⟨_, _, leftDecoded, rightDecoded, by decide +kernel, by decide +kernel⟩

end Barycenter.Dp
