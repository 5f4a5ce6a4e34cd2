import Mathlib.Data.List.Basic

/-!
# Reading delimited text back

Keys and fingerprints are often made by joining fields with a separator.  The
join determines a field only when the field cannot contain the separator, as a
decimal numeral cannot; a field of free text can be shifted into its
neighbour.  Two joins of the same fields with different separators, however,
determine even free text.
-/

namespace Barycenter

namespace DelimitedText

variable {separator : Char} {left right : List Char}

theorem split_at_separator {leftRest rightRest : List Char} (leftFree : separator ∉ left)
    (rightFree : separator ∉ right)
    (joined : left ++ separator :: leftRest = right ++ separator :: rightRest) :
    left = right ∧ leftRest = rightRest := by
  induction left generalizing right with
  | nil =>
      cases right with
      | nil => simpa using joined
      | cons head tail =>
          have same : separator = head := by simpa using congrArg List.head? joined
          exact absurd (by simp [same]) rightFree
  | cons head tail induction =>
      cases right with
      | nil =>
          have same : head = separator := by simpa using congrArg List.head? joined
          exact absurd (by simp [same]) leftFree
      | cons otherHead otherTail =>
          simp only [List.cons_append, List.cons.injEq] at joined
          obtain ⟨sameHead, sameTail⟩ := joined
          obtain ⟨tails, rests⟩ := induction
            (fun member => leftFree (List.mem_cons_of_mem _ member))
            (fun member => rightFree (List.mem_cons_of_mem _ member))
            sameTail
          exact ⟨by rw [sameHead, tails], rests⟩

theorem split_at_last_separator {leftLast rightLast : List Char} (leftFree : separator ∉ leftLast)
    (rightFree : separator ∉ rightLast)
    (joined : left ++ separator :: leftLast = right ++ separator :: rightLast) :
    left = right ∧ leftLast = rightLast := by
  have reversed : leftLast.reverse ++ separator :: left.reverse =
      rightLast.reverse ++ separator :: right.reverse := by
    simpa using congrArg List.reverse joined
  obtain ⟨lasts, rests⟩ := split_at_separator
    (by simpa using leftFree) (by simpa using rightFree) reversed
  exact ⟨List.reverse_injective rests, List.reverse_injective lasts⟩

theorem split_at_two_separators {first second : Char} (different : first ≠ second)
    {firstLeft firstRight secondLeft secondRight : List Char}
    (firstJoin : left ++ first :: firstLeft = right ++ first :: firstRight)
    (secondJoin : left ++ second :: secondLeft = right ++ second :: secondRight) :
    left = right ∧ firstLeft = firstRight ∧ secondLeft = secondRight := by
  induction left generalizing right with
  | nil =>
      cases right with
      | nil => simpa using And.intro firstJoin secondJoin
      | cons head tail =>
          have headFirst : first = head := by
            simpa using congrArg List.head? firstJoin
          have headSecond : second = head := by
            simpa using congrArg List.head? secondJoin
          exact absurd (headFirst.trans headSecond.symm) different
  | cons head tail induction =>
      cases right with
      | nil =>
          have headFirst : head = first := by
            simpa using congrArg List.head? firstJoin
          have headSecond : head = second := by
            simpa using congrArg List.head? secondJoin
          exact absurd (headFirst.symm.trans headSecond) different
      | cons otherHead otherTail =>
          simp only [List.cons_append, List.cons.injEq] at firstJoin secondJoin
          obtain ⟨tails, rests⟩ := induction firstJoin.2 secondJoin.2
          exact ⟨by rw [firstJoin.1, tails], rests⟩

theorem separator_notMem_numeral (notDigit : separator.isDigit = false) (number : Nat) :
    separator ∉ (toString number).toList := by
  intro member
  have digit : separator.isDigit = true :=
    Nat.isDigit_of_mem_toDigits (b := 10) (by decide) (by decide) (by simpa using member)
  simp [notDigit] at digit

theorem numeral_injective {left right : Nat}
    (same : (toString left).toList = (toString right).toList) : left = right := by
  have digits : Nat.toDigits 10 left = Nat.toDigits 10 right := by simpa using same
  have numbers := congrArg (fun numeral => Nat.ofDigitChars 10 numeral 0) digits
  simpa using numbers

end DelimitedText

end Barycenter
