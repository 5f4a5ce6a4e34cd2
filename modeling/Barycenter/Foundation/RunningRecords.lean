import Mathlib.Data.List.TakeWhile

/-!
# Records of a numbered sequence and the runs at its head

Numbered observations arrive in any order.  A record is an observation whose
number is above zero and above all that arrived before it; the records are what
a guard lets through that only remembers the last number.  Sequences are written
newest first.
-/

namespace Barycenter

namespace Records

variable {α β : Type}

/-- The observations above all that arrived before them. -/
def records (rank : α → Nat) : List α → List α
  | [] => []
  | newest :: older =>
      if 0 < rank newest ∧ ∀ other ∈ older, rank other < rank newest then
        newest :: records rank older
      else records rank older

def height (rank : α → Nat) (arrived : List α) : Nat :=
  (records rank arrived).head?.elim 0 rank

variable {rank : α → Nat}

@[simp] theorem records_nil (rank : α → Nat) : records rank [] = [] := rfl

theorem height_lt_iff {arrived : List α} (bound : Nat) :
    height rank arrived < bound ↔ 0 < bound ∧ ∀ other ∈ arrived, rank other < bound := by
  induction arrived generalizing bound with
  | nil => simp [height]
  | cons newest older induction =>
      rw [List.forall_mem_cons]
      by_cases record : 0 < rank newest ∧ ∀ other ∈ older, rank other < rank newest
      · have raised : height rank (newest :: older) = rank newest := by
          rw [height, records, if_pos record]
          rfl
        rw [raised]
        constructor
        · intro above
          exact ⟨Nat.zero_lt_of_lt above, above, fun other member =>
            Nat.lt_trans (record.2 other member) above⟩
        · exact fun bounds => bounds.2.1
      · have kept : height rank (newest :: older) = height rank older := by
          rw [height, records, if_neg record]
          rfl
        have low : rank newest ≤ height rank older :=
          Nat.not_lt.mp ((induction (rank newest)).not.mpr record)
        rw [kept]
        constructor
        · intro above
          have bounds := (induction bound).mp above
          exact ⟨bounds.1, Nat.lt_of_le_of_lt low above, bounds.2⟩
        · exact fun bounds => (induction bound).mpr ⟨bounds.1, bounds.2.2⟩

theorem records_cons (newest : α) (older : List α) :
    records rank (newest :: older) =
      if height rank older < rank newest then newest :: records rank older
      else records rank older := by
  rw [records]
  exact if_congr (height_lt_iff (rank newest)).symm rfl rfl

theorem height_of_records {arrived : List α} (none : records rank arrived = []) :
    height rank arrived = 0 := by
  simp [height, none]

theorem height_cons_records {arrived older : List α} {newest : α}
    (some : records rank arrived = newest :: older) : height rank arrived = rank newest := by
  simp [height, some]

theorem records_subset (rank : α → Nat) (arrived : List α) :
    ∀ record ∈ records rank arrived, record ∈ arrived := by
  induction arrived with
  | nil => simp
  | cons newest older induction =>
      intro record member
      rw [records] at member
      split at member
      · rcases List.mem_cons.mp member with rfl | old
        · exact List.mem_cons_self
        · exact List.mem_cons_of_mem _ (induction record old)
      · exact List.mem_cons_of_mem _ (induction record member)

theorem records_increasing (rank : α → Nat) (arrived : List α) :
    (records rank arrived).Pairwise fun later earlier => rank earlier < rank later := by
  induction arrived with
  | nil => exact .nil
  | cons newest older induction =>
      rw [records]
      split
      · rename_i above
        exact .cons (fun record member => above.2 record (records_subset rank older record member))
          induction
      · exact induction

/-- How many of the newest observations have one result. -/
def headRun [DecidableEq β] (result : α → β) : List α → Nat
  | [] => 0
  | newest :: older => (older.takeWhile fun other => result other = result newest).length + 1

theorem headRun_single [DecidableEq β] (result : α → β) (newest : α) :
    headRun result [newest] = 1 := by
  simp [headRun]

theorem headRun_cons [DecidableEq β] (result : α → β) (newest last : α) (older : List α) :
    headRun result (newest :: last :: older) =
      if result last = result newest then headRun result (last :: older) + 1 else 1 := by
  by_cases same : result last = result newest
  · simp [headRun, same]
  · simp [headRun, same]

end Records

end Barycenter
