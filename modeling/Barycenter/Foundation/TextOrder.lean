import Mathlib.Data.List.Lex
import Mathlib.Data.List.Sort
import Mathlib.Data.List.Infix

/-!
# The order of texts by code units

A text is compared with another one unit of its two-byte encoding at a time.
A character beyond the first plane is two units, so it sorts below some
characters that have a smaller number.
-/

namespace Barycenter

namespace Text

def unitsOf (character : Char) : List Nat :=
  if character.toNat < 0x10000 then
    [character.toNat]
  else
    [0xD800 + (character.toNat - 0x10000) / 0x400,
      0xDC00 + (character.toNat - 0x10000) % 0x400]

def codeUnits (text : String) : List Nat := text.toList.flatMap unitsOf

def before (left right : String) : Bool :=
  decide (codeUnits left < codeUnits right)

theorem before_eq_false_iff {left right : String} :
    before left right = false ↔ codeUnits right ≤ codeUnits left := by
  simp [before]

theorem unitsOf_append_inj {left right : Char} {leftRest rightRest : List Nat}
    (same : unitsOf left ++ leftRest = unitsOf right ++ rightRest) :
    left = right ∧ leftRest = rightRest := by
  have leftValid : left.toNat < 0xD800 ∨ 0xDFFF < left.toNat ∧ left.toNat < 0x110000 :=
    left.valid
  have rightValid : right.toNat < 0xD800 ∨ 0xDFFF < right.toNat ∧ right.toNat < 0x110000 :=
    right.valid
  have codes : left.toNat = right.toNat ∧ leftRest = rightRest := by
    unfold unitsOf at same
    split at same <;> split at same <;>
      simp only [List.cons_append, List.nil_append, List.cons.injEq] at same
    · exact same
    · omega
    · omega
    · exact ⟨by omega, same.2.2⟩
  exact ⟨Char.toNat_inj.mp codes.1, codes.2⟩

theorem unitsOf_ne_nil (character : Char) : unitsOf character ≠ [] := by
  unfold unitsOf
  split <;> simp

theorem codeUnits_injective {left right : String} (same : codeUnits left = codeUnits right) :
    left = right := by
  have chars : ∀ first second : List Char,
      first.flatMap unitsOf = second.flatMap unitsOf → first = second := by
    intro first
    induction first with
    | nil =>
        intro second equal
        cases second with
        | nil => rfl
        | cons char rest => simp [unitsOf_ne_nil] at equal
    | cons char rest induction =>
        intro second equal
        cases second with
        | nil => simp [unitsOf_ne_nil] at equal
        | cons other others =>
            simp only [List.flatMap_cons] at equal
            obtain ⟨heads, tails⟩ := unitsOf_append_inj equal
            rw [heads, induction others tails]
  exact String.toList_inj.mp (chars _ _ same)

/-- Does `piece` occur somewhere in `text`? -/
def includes (text piece : String) : Bool :=
  decide (piece.toList <:+: text.toList)

end Text

def sortedBy {α : Type} (textOf : α → String) (items : List α) : List α :=
  items.mergeSort fun left right =>
    !(Text.before (textOf right) (textOf left))

variable {α : Type}

@[simp]
theorem mem_sortedBy {textOf : α → String} {items : List α} {item : α} :
    item ∈ sortedBy textOf items ↔ item ∈ items := by
  simp [sortedBy]

@[simp]
theorem length_sortedBy (textOf : α → String) (items : List α) :
    (sortedBy textOf items).length = items.length := by
  simp [sortedBy]

theorem sortedBy_perm (textOf : α → String) (items : List α) :
    (sortedBy textOf items).Perm items := List.mergeSort_perm _ _

theorem sortedBy_eq_of_perm {textOf : α → String} {items others : List α}
    (permutation : others.Perm items)
    (noTies : ∀ left ∈ items, ∀ right ∈ items, textOf left = textOf right → left = right) :
    sortedBy textOf others = sortedBy textOf items := by
  have sorted (list : List α) :
      (sortedBy textOf list).Pairwise fun left right =>
        (!(Text.before (textOf right) (textOf left))) = true :=
    List.pairwise_mergeSort
      (fun first second third => by
        simpa only [Bool.not_eq_true', Text.before_eq_false_iff] using le_trans)
      (fun left right => by
        simpa only [Bool.or_eq_true, Bool.not_eq_true', Text.before_eq_false_iff] using
          le_total _ _) list
  refine List.Perm.eq_of_pairwise ?_ (sorted others) (sorted items)
    ((sortedBy_perm textOf others).trans (permutation.trans (sortedBy_perm textOf items).symm))
  intro left right leftMember rightMember forward backward
  simp only [Bool.not_eq_true', Text.before_eq_false_iff] at forward backward
  exact noTies left (permutation.mem_iff.mp (mem_sortedBy.mp leftMember)) right
    (mem_sortedBy.mp rightMember) (Text.codeUnits_injective (le_antisymm forward backward))

end Barycenter
