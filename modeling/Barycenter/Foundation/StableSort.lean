import Mathlib.Data.List.Sort

/-!
# Sorting by a key

A comparison that follows a key in a linear order sorts every list.  The result
does not depend on the order of the input exactly when no two different items
have the same key, because items with the same key keep their order.
-/

namespace Barycenter

namespace StableSort

variable {α κ : Type} [LinearOrder κ] {keyOf : α → κ} {before : α → α → Bool}
  (follows : ∀ left right, before left right ↔ keyOf left ≤ keyOf right)

include follows

theorem total : Std.Total fun left right => before left right = true :=
  ⟨fun left right => by simpa only [follows] using le_total _ _⟩

theorem transitive : IsTrans α fun left right => before left right = true :=
  ⟨fun first second third => by simpa only [follows] using le_trans⟩

theorem pairwise_sort (items : List α) :
    (items.insertionSort fun left right => before left right).Pairwise fun left right =>
      before left right := by
  have isTotal := total follows
  have isTransitive := transitive follows
  exact List.pairwise_insertionSort _ _

omit follows in
theorem pair_order {items : List α} (nodup : items.Nodup) {left right : α}
    (forward : [left, right].Sublist items) : ¬[right, left].Sublist items := by
  induction items with
  | nil => cases forward
  | cons first rest induction =>
      obtain ⟨fresh, restNodup⟩ := List.nodup_cons.mp nodup
      intro backward
      cases forward with
      | cons _ forwardRest =>
          cases backward with
          | cons _ backwardRest => exact induction restNodup forwardRest backwardRest
          | cons_cons _ leftRest => exact fresh (forwardRest.subset (by simp))
      | cons_cons _ rightRest =>
          cases backward with
          | cons _ backwardRest => exact fresh (backwardRest.subset (by simp))
          | cons_cons _ leftRest => exact fresh (leftRest.subset (by simp))

theorem sort_eq_of_perm {items others : List α} (permutation : others.Perm items)
    (noTies : ∀ left ∈ items, ∀ right ∈ items, keyOf left = keyOf right → left = right) :
    (others.insertionSort fun left right => before left right) =
      items.insertionSort fun left right => before left right := by
  refine List.Perm.eq_of_pairwise ?_ (pairwise_sort follows others)
    (pairwise_sort follows items) ?_
  · intro left right leftMember rightMember forward backward
    refine noTies left (permutation.mem_iff.mp ((List.mem_insertionSort _).mp leftMember))
      right ((List.mem_insertionSort _).mp rightMember) ?_
    exact le_antisymm ((follows _ _).mp forward) ((follows _ _).mp backward)
  · exact (List.perm_insertionSort _ _).trans
      (permutation.trans (List.perm_insertionSort _ _).symm)

/-- The result is the same for every order of the items exactly when there are no ties. -/
theorem canonical_iff {items : List α} (nodup : items.Nodup) :
    (∀ others : List α, others.Perm items →
        (others.insertionSort fun left right => before left right) =
          items.insertionSort fun left right => before left right) ↔
      ∀ left ∈ items, ∀ right ∈ items, keyOf left = keyOf right → left = right := by
  classical
  constructor
  · intro canonical left leftMember right rightMember tie
    by_contra different
    have rightLater : right ∈ items.erase left :=
      (List.mem_erase_of_ne (Ne.symm different)).mpr rightMember
    have leftFirst : (left :: right :: (items.erase left).erase right).Perm items :=
      ((List.perm_cons_erase rightLater).symm.cons left).trans
        (List.perm_cons_erase leftMember).symm
    have rightFirst : (right :: left :: (items.erase left).erase right).Perm items :=
      (List.Perm.swap left right _).trans leftFirst
    have leftBefore : before left right = true := (follows _ _).mpr (le_of_eq tie)
    have rightBefore : before right left = true := (follows _ _).mpr (le_of_eq tie.symm)
    have forward := List.pair_sublist_insertionSort
      (r := fun left right => before left right = true) leftBefore
      (((List.nil_sublist ((items.erase left).erase right)).cons_cons right).cons_cons left)
    have backward := List.pair_sublist_insertionSort
      (r := fun left right => before left right = true) rightBefore
      (((List.nil_sublist ((items.erase left).erase right)).cons_cons left).cons_cons right)
    rw [canonical _ leftFirst] at forward
    rw [canonical _ rightFirst] at backward
    exact pair_order ((List.perm_insertionSort _ _).nodup_iff.mpr nodup) forward backward
  · intro noTies others permutation
    exact sort_eq_of_perm follows permutation noTies

end StableSort

end Barycenter
