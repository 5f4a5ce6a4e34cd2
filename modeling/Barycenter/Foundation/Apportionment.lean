import Mathlib.Algebra.BigOperators.Group.List.Basic
import Mathlib.Data.List.Sort
import Mathlib.Algebra.GroupWithZero.Nat

/-!
# Sharing out a number in proportion

A budget is shared in proportion to given parts, every share is rounded down,
and what the rounding leaves is handed out one by one.  There is always less left
than there are parts, so nobody is given more than one.
-/

namespace Barycenter

namespace Apportionment

variable {parts counts : List Nat} {budget whole : Nat}

def floors (parts : List Nat) (budget whole : Nat) : List Nat :=
  parts.map fun part => part * budget / whole

theorem sum_floors_mul_le : (floors parts budget whole).sum * whole ≤ parts.sum * budget := by
  induction parts with
  | nil => simp [floors]
  | cons part rest induction =>
      have here := Nat.div_mul_le_self (part * budget) whole
      simp only [floors, List.map_cons, List.sum_cons, Nat.add_mul] at induction ⊢
      omega

theorem lt_sum_floors_mul (positive : 0 < whole) (some : parts ≠ []) :
    parts.sum * budget < ((floors parts budget whole).sum + parts.length) * whole := by
  have bound (part : Nat) : part * budget < (part * budget / whole + 1) * whole := by
    have split := Nat.div_add_mod (part * budget) whole
    have small := Nat.mod_lt (part * budget) positive
    rw [Nat.add_mul, Nat.mul_comm (part * budget / whole)]
    omega
  induction parts with
  | nil => exact absurd rfl some
  | cons part rest induction =>
      have here := bound part
      by_cases empty : rest = []
      · subst empty
        simpa [floors] using here
      · have later := induction empty
        simp only [floors, List.map_cons, List.sum_cons, List.length_cons, Nat.add_mul] at *
        omega

theorem sum_floors_le (positive : 0 < parts.sum) :
    (floors parts budget parts.sum).sum ≤ budget := by
  have bound := @sum_floors_mul_le parts budget parts.sum
  rw [Nat.mul_comm parts.sum] at bound
  exact Nat.le_of_mul_le_mul_right bound positive

theorem budget_lt (positive : 0 < parts.sum) :
    budget < (floors parts budget parts.sum).sum + parts.length := by
  have some : parts ≠ [] := by
    rintro rfl
    simp at positive
  have bound := @lt_sum_floors_mul parts budget parts.sum positive some
  rw [Nat.mul_comm parts.sum] at bound
  exact Nat.lt_of_mul_lt_mul_right bound

theorem sum_modify {index : Nat} (bound : index < counts.length) :
    (counts.modify index (· + 1)).sum = counts.sum + 1 := by
  induction counts generalizing index with
  | nil => simp at bound
  | cons count rest induction =>
      cases index with
      | zero => simp; omega
      | succ index =>
          have inside : index < rest.length := by simpa using bound
          have later := induction inside
          simp [later]
          omega

/-- In a list in falling order, whoever is larger than one of the first stands
among the first. -/
theorem larger_among_first {size : Nat → Nat} {order : List Nat} {taken : Nat}
    (falling : order.Pairwise fun left right => size right ≤ size left)
    {larger smaller : Nat} (member : larger ∈ order) (first : smaller ∈ order.take taken)
    (more : size smaller < size larger) : larger ∈ order.take taken := by
  rw [← List.take_append_drop taken order] at member falling
  rcases List.mem_append.mp member with before | after
  · exact before
  · have ordered := (List.pairwise_append.mp falling).2.2 smaller first larger after
    omega

end Apportionment

end Barycenter
