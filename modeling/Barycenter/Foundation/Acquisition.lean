import Mathlib.Data.List.Pairwise

/-!
# Acquiring exclusive resources one after another

A sequence of acquisitions starts from the resources that are open already.  A
resource that is open is kept, and every other one is acquired next to all that
are open at that moment, including those acquired before it.  One clash stops
the sequence.  Whether a sequence succeeds does not depend on its order: it does
exactly when no two resources involved clash.
-/

namespace Barycenter

namespace Acquisition

variable {α : Type} [DecidableEq α] (clash : α → α → Bool) (kept : List α)

def acquireAll (held : List α) : List α → Option (List α)
  | [] => some held
  | item :: rest =>
      if item ∈ kept then acquireAll held rest
      else if held.any (clash item) then none
      else acquireAll (item :: held) rest

def fresh (items : List α) : List α := items.filter fun item => item ∉ kept

variable {clash kept}

theorem acquireAll_isSome_iff {held items : List α} :
    (acquireAll clash kept held items).isSome ↔
      (∀ item ∈ fresh kept items, ∀ other ∈ held, clash item other = false) ∧
        (fresh kept items).Pairwise fun earlier later => clash later earlier = false := by
  induction items generalizing held with
  | nil => simp [acquireAll, fresh]
  | cons item rest induction =>
      by_cases isKept : item ∈ kept
      · simpa [acquireAll, fresh, isKept] using induction
      · have freshCons : fresh kept (item :: rest) = item :: fresh kept rest := by
          simp [fresh, isKept]
        rw [acquireAll, if_neg isKept, freshCons, List.pairwise_cons]
        by_cases blocked : held.any (clash item) = true
        · rw [if_pos blocked]
          obtain ⟨other, isHeld, clashes⟩ := List.any_eq_true.mp blocked
          constructor
          · intro impossible
            cases impossible
          · rintro ⟨clear, -⟩
            have clear := clear item List.mem_cons_self other isHeld
            rw [clashes] at clear
            cases clear
        · rw [if_neg blocked, induction]
          have clear : ∀ other ∈ held, clash item other = false := by
            intro other isHeld
            by_contra clashes
            exact blocked (List.any_eq_true.mpr ⟨other, isHeld, by simpa using clashes⟩)
          constructor
          · rintro ⟨apart, pairwise⟩
            refine ⟨?_, ?_, pairwise⟩
            · intro other isFresh
              rcases List.mem_cons.mp isFresh with rfl | later
              · exact clear
              · exact fun opened isHeld => apart other later opened (List.mem_cons_of_mem _ isHeld)
            · exact fun other later => apart other later item List.mem_cons_self
          · rintro ⟨apart, first, pairwise⟩
            refine ⟨?_, pairwise⟩
            intro other later opened isHeld
            rcases List.mem_cons.mp isHeld with rfl | held
            · exact first other later
            · exact apart other (List.mem_cons_of_mem _ later) opened held

variable {items : List α}

theorem acquireAll_cold_iff :
    (acquireAll clash [] [] items).isSome ↔
      items.Pairwise fun earlier later => clash later earlier = false := by
  have all : fresh [] items = items := by simp [fresh]
  simp [acquireAll_isSome_iff, all]

theorem mem_fresh {item : α} : item ∈ fresh kept items ↔ item ∈ items ∧ item ∉ kept := by
  simp [fresh]

/-- Resources that stand side by side can replace others unless a new one meets an old one. -/
theorem acquireAll_iff_of_cold (cold : (acquireAll clash [] [] items).isSome) :
    (acquireAll clash kept kept items).isSome ↔
      ∀ item ∈ items, item ∉ kept → ∀ other ∈ kept, clash item other = false := by
  have pairwise := (acquireAll_cold_iff.mp cold).sublist
    (List.filter_sublist (l := items) (p := fun item => item ∉ kept))
  rw [acquireAll_isSome_iff]
  constructor
  · exact fun both item member isNew => both.1 item (mem_fresh.mpr ⟨member, isNew⟩)
  · exact fun clear => ⟨fun item isFresh =>
      clear item (mem_fresh.mp isFresh).1 (mem_fresh.mp isFresh).2, pairwise⟩

theorem apart_of_acquired (symmetric : ∀ left right, clash left right = clash right left)
    (cold : (acquireAll clash [] [] kept).isSome)
    (acquired : (acquireAll clash kept kept items).isSome) {left right : α}
    (isLeft : left ∈ items) (isRight : right ∈ items) (different : left ≠ right) :
    clash left right = false := by
  have isSymmetric : Std.Symm fun earlier later => clash later earlier = false :=
    ⟨fun _ _ apart => (symmetric _ _).trans apart⟩
  obtain ⟨clear, pairwise⟩ := acquireAll_isSome_iff.mp acquired
  by_cases leftKept : left ∈ kept
  · by_cases rightKept : right ∈ kept
    · exact (acquireAll_cold_iff.mp cold).forall rightKept leftKept different.symm
    · rw [symmetric]
      exact clear right (mem_fresh.mpr ⟨isRight, rightKept⟩) left leftKept
  · by_cases rightKept : right ∈ kept
    · exact clear left (mem_fresh.mpr ⟨isLeft, leftKept⟩) right rightKept
    · exact pairwise.forall (mem_fresh.mpr ⟨isRight, rightKept⟩)
        (mem_fresh.mpr ⟨isLeft, leftKept⟩) different.symm

end Acquisition

end Barycenter
