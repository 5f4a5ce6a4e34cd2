import Mathlib.Data.List.Induction
import Barycenter.Foundation.OrderedMap

/-!
# Writes to a map, one after the other

When writes to one key all write the same value, their order does not matter:
what is written is what is found, and the rest is as before.
-/

namespace Barycenter

namespace OrderedMap

variable {κ α : Type} [DecidableEq κ] {map : OrderedMap κ α} {writes : List (κ × α)}

def written (map : OrderedMap κ α) (writes : List (κ × α)) : OrderedMap κ α :=
  writes.foldl (fun map (key, value) => map.set key value) map

def Agreeing (writes : List (κ × α)) : Prop :=
  ∀ key first second, (key, first) ∈ writes → (key, second) ∈ writes → first = second

theorem written_append (map : OrderedMap κ α) (earlier later : List (κ × α)) :
    map.written (earlier ++ later) = (map.written earlier).written later := by
  simp [written]

variable {value : α}

theorem mem_keys_set {key wanted : κ} :
    wanted ∈ (map.set key value).keys ↔ wanted = key ∨ wanted ∈ map.keys := by
  simp only [mem_keys_iff, get?_set]
  by_cases same : key = wanted
  · simp [same]
  · simp [same, Ne.symm same]

theorem mem_keys_written {wanted : κ} :
    wanted ∈ (map.written writes).keys ↔ wanted ∈ map.keys ∨ wanted ∈ writes.map Prod.fst := by
  induction writes generalizing map with
  | nil => simp [written]
  | cons write rest induction =>
      obtain ⟨key, value⟩ := write
      have later := @induction (map.set key value)
      rw [mem_keys_set] at later
      rw [written, List.foldl_cons]
      refine later.trans ?_
      rw [List.map_cons, List.mem_cons, or_comm (a := wanted = key), or_assoc]

variable {key : κ}

theorem get?_written_of_not_mem (untouched : ∀ value, (key, value) ∉ writes) :
    (map.written writes).get? key = map.get? key := by
  induction writes generalizing map with
  | nil => rfl
  | cons write rest induction =>
      obtain ⟨other, value⟩ := write
      have different : other ≠ key := by
        rintro rfl
        exact untouched value List.mem_cons_self
      have later := @induction (map.set other value)
        fun value member => untouched value (List.mem_cons_of_mem _ member)
      rw [written, List.foldl_cons]
      exact later.trans (get?_set_other map value different)

theorem get?_written_of_mem (agreeing : Agreeing writes) (member : (key, value) ∈ writes) :
    (map.written writes).get? key = some value := by
  induction writes using List.reverseRecOn with
  | nil => cases member
  | append_singleton earlier write induction =>
      obtain ⟨last, final⟩ := write
      rw [written_append, written, List.foldl_cons, List.foldl_nil, get?_set]
      by_cases same : last = key
      · subst same
        rw [if_pos rfl, agreeing last final value (by simp) member]
      · rw [if_neg same]
        have earlierMember : (key, value) ∈ earlier := by
          rcases List.mem_append.mp member with early | late
          · exact early
          · cases List.mem_singleton.mp late
            exact absurd rfl same
        exact induction (fun key first second left right =>
          agreeing key first second (List.mem_append_left _ left) (List.mem_append_left _ right))
          earlierMember

theorem get?_written_iff (agreeing : Agreeing writes) :
    (map.written writes).get? key = some value ↔
      (key, value) ∈ writes ∨
        (∀ other, (key, other) ∉ writes) ∧ map.get? key = some value := by
  by_cases touched : ∃ other, (key, other) ∈ writes
  · obtain ⟨other, member⟩ := touched
    rw [get?_written_of_mem agreeing member]
    constructor
    · rintro ⟨⟩
      exact .inl member
    · rintro (same | ⟨untouched, -⟩)
      · exact congrArg some (agreeing key other value member same)
      · exact absurd member (untouched other)
  · have untouched : ∀ other, (key, other) ∉ writes := fun other member => touched ⟨other, member⟩
    rw [get?_written_of_not_mem untouched]
    constructor
    · exact fun found => .inr ⟨untouched, found⟩
    · rintro (member | ⟨-, found⟩)
      · exact absurd member (untouched value)
      · exact found

end OrderedMap

end Barycenter
