import Mathlib.Data.List.TakeWhile
import Barycenter.Foundation.DelimitedText

/-!
# Taking a text apart at a character

The pieces between the occurrences of a character, what stands in front of its
first or its last occurrence, and what stands between two fixed ends.  Every
operation is determined by the text it is undone by.
-/

namespace Barycenter

namespace Scanning

variable {separator : Char} {text front back before after middle : List Char}

def pieces (separator : Char) (text : List Char) : List (List Char) :=
  (text.splitOn separator).filter fun piece => !piece.isEmpty

/-- What stands in front of the first separator and what follows it. -/
def firstCut (separator : Char) (text : List Char) : Option (List Char × List Char) :=
  match text.dropWhile (· ≠ separator) with
  | [] => none
  | _ :: after => some (text.takeWhile (· ≠ separator), after)

/-- What stands in front of the last separator and what follows it. -/
def lastCut (separator : Char) (text : List Char) : Option (List Char × List Char) :=
  (firstCut separator text.reverse).map fun (after, before) => (before.reverse, after.reverse)

/-- What stands between two fixed ends, when it is not empty. -/
def between (front back text : List Char) : Option (List Char) :=
  let middle := (text.drop front.length).take (text.length - front.length - back.length)
  if front ++ middle ++ back = text ∧ middle ≠ [] then some middle else none

theorem firstCut_eq_some :
    firstCut separator text = some (before, after) ↔
      text = before ++ separator :: after ∧ separator ∉ before := by
  constructor
  · intro cut
    simp only [firstCut] at cut
    split at cut
    · cases cut
    · rename_i head rest found
      cases cut
      have stop : head = separator := by
        have fails := List.head?_dropWhile_not (· ≠ separator) text
        rw [found] at fails
        simpa using fails
      subst stop
      refine ⟨?_, fun member => ?_⟩
      · rw [← found]
        exact List.takeWhile_append_dropWhile.symm
      · simpa using List.mem_takeWhile_imp member
  · rintro ⟨rfl, absent⟩
    have passes : ∀ character ∈ before, (decide (character ≠ separator)) = true := by
      intro character member
      exact decide_eq_true fun same => absent (same ▸ member)
    rw [firstCut, List.dropWhile_append_of_pos passes, List.takeWhile_append_of_pos passes]
    simp

theorem lastCut_eq_some :
    lastCut separator text = some (before, after) ↔
      text = before ++ separator :: after ∧ separator ∉ after := by
  simp only [lastCut, Option.map_eq_some_iff, Prod.exists, Prod.mk.injEq]
  constructor
  · rintro ⟨reversedAfter, reversedBefore, cut, rfl, rfl⟩
    obtain ⟨whole, absent⟩ := firstCut_eq_some.mp cut
    refine ⟨?_, by simpa using absent⟩
    simpa using congrArg List.reverse whole
  · rintro ⟨rfl, absent⟩
    exact ⟨after.reverse, before.reverse,
      firstCut_eq_some.mpr ⟨by simp, by simpa using absent⟩, by simp, by simp⟩

theorem exists_lastCut (member : separator ∈ text) :
    ∃ before after, text = before ++ separator :: after ∧ separator ∉ after := by
  obtain ⟨after, before, reversed, absent⟩ :=
    List.eq_append_cons_of_mem (List.mem_reverse.mpr member)
  refine ⟨before.reverse, after.reverse, ?_, by simpa using absent⟩
  simpa using congrArg List.reverse reversed

theorem between_eq_some :
    between front back text = some middle ↔ text = front ++ middle ++ back ∧ middle ≠ [] := by
  simp only [between]
  constructor
  · intro found
    split at found
    · rename_i holds
      cases found
      exact ⟨holds.1.symm, holds.2⟩
    · cases found
  · rintro ⟨rfl, some⟩
    have same : ((front ++ middle ++ back).drop front.length).take
        ((front ++ middle ++ back).length - front.length - back.length) = middle := by
      have length : (front ++ middle ++ back).length - front.length - back.length =
          middle.length := by
        simp only [List.length_append]
        omega
      rw [length, List.append_assoc, List.drop_left, List.take_left]
    rw [same, if_pos ⟨rfl, some⟩]

theorem pieces_intercalate {parts : List (List Char)}
    (free : ∀ part ∈ parts, separator ∉ part) (filled : ∀ part ∈ parts, part ≠ []) :
    pieces separator ([separator].intercalate parts) = parts := by
  by_cases empty : parts = []
  · subst empty
    simp [pieces]
  · rw [pieces, List.splitOn_intercalate separator free empty, List.filter_eq_self]
    intro part member
    simpa using filled part member

theorem notMem_intercalate {character : Char} (different : character ≠ separator)
    {parts : List (List Char)} (free : ∀ part ∈ parts, character ∉ part) :
    character ∉ [separator].intercalate parts := by
  induction parts with
  | nil => simp
  | cons first rest induction =>
      cases rest with
      | nil => simpa using free
      | cons second others =>
          have later := induction fun part member => free part (List.mem_cons_of_mem _ member)
          rw [List.intercalate_cons_cons]
          simp [free first, different, later]

end Scanning

end Barycenter
