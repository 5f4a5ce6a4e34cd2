import Barycenter.Foundation.Scanning
import Mathlib.Data.List.DropRight

/-!
# Relative paths

Joining and normalising paths with slashes, and the last part of a path.  A name
comes back from a path it was appended to exactly when it is a single part.
-/

namespace Barycenter

namespace PosixPath

open Scanning

/-- Resolve one more part of a relative path; parts are kept last first. -/
def resolvePart (parts : List (List Char)) (part : List Char) : List (List Char) :=
  if part = [] ∨ part = ['.'] then parts
  else if part = ['.', '.'] then
    match parts with
    | [] => [['.', '.']]
    | last :: earlier => if last = ['.', '.'] then ['.', '.'] :: parts else earlier
  else part :: parts

/-- A relative path without empty parts, and without dots that can be resolved. -/
def normalize (path : List Char) : List Char :=
  let parts := (path.splitOn '/').foldl resolvePart []
  let plain := if parts = [] then ['.'] else ['/'].intercalate parts.reverse
  if path.getLast? = some '/' then plain ++ ['/'] else plain

def join (directory name : List Char) : List Char :=
  normalize (if name = [] then directory else directory ++ '/' :: name)

def basename (path : List Char) : List Char :=
  let trimmed := path.rdropWhile (· = '/')
  ((lastCut '/' trimmed).map Prod.snd).getD trimmed

def Plain (name : List Char) : Prop :=
  '/' ∉ name ∧ name ≠ [] ∧ name ≠ ['.'] ∧ name ≠ ['.', '.']

theorem slash_notMem_basename (path : List Char) : '/' ∉ basename path := by
  rw [basename]
  generalize path.rdropWhile (· = '/') = trimmed
  cases cut : lastCut '/' trimmed with
  | some halves =>
      obtain ⟨front, back⟩ := halves
      exact (lastCut_eq_some.mp cut).2
  | none =>
      intro member
      have inside : '/' ∈ trimmed := by simpa using member
      obtain ⟨front, back, whole, free⟩ := exists_lastCut inside
      rw [lastCut_eq_some.mpr ⟨whole, free⟩] at cut
      cases cut

theorem basename_of_free {name : List Char} (free : '/' ∉ name) : basename name = name := by
  have kept : name.rdropWhile (· = '/') = name := by
    rw [List.rdropWhile_eq_self_iff]
    intro nonempty ends
    exact free (of_decide_eq_true ends ▸ List.getLast_mem nonempty)
  rw [basename, kept]
  cases cut : lastCut '/' name with
  | none => rfl
  | some halves =>
      obtain ⟨front, back⟩ := halves
      refine absurd ?_ free
      rw [(lastCut_eq_some.mp cut).1]
      simp

variable {directory name : List Char}

theorem basename_append (free : '/' ∉ name) (some : name ≠ []) :
    basename (directory ++ '/' :: name) = name := by
  have kept : (directory ++ '/' :: name).rdropWhile (· = '/') = directory ++ '/' :: name := by
    rw [List.rdropWhile_eq_self_iff]
    intro nonempty ends
    refine free ?_
    have last : (directory ++ '/' :: name).getLast nonempty = name.getLast some := by
      rw [List.getLast_append_of_ne_nil _ (List.cons_ne_nil _ _), List.getLast_cons some]
    rw [last] at ends
    exact of_decide_eq_true ends ▸ List.getLast_mem some
  rw [basename, kept, lastCut_eq_some.mpr ⟨rfl, free⟩]
  rfl

theorem not_ends_with_slash (free : '/' ∉ name) (some : name ≠ []) :
    (directory ++ '/' :: name).getLast? ≠ Option.some '/' := by
  intro ends
  rw [List.getLast?_append_of_ne_nil _ (List.cons_ne_nil _ _), List.getLast?_cons,
    List.getLast?_eq_getLast_of_ne_nil some] at ends
  exact free (Option.some.inj ends ▸ List.getLast_mem some)

theorem parts_append (plain : Plain directory) (free : '/' ∉ name) :
    ((directory ++ '/' :: name).splitOn '/').foldl resolvePart [] =
      resolvePart [directory] name := by
  rw [List.splitOn_append_cons_self_of_not_mem plain.1, List.splitOn_eq_singleton free]
  simp [resolvePart, plain.2.1, plain.2.2.1, plain.2.2.2]

theorem normalize_plain {directory : List Char} (plain : Plain directory) :
    normalize directory = directory := by
  have ends : directory.getLast? ≠ some '/' := by
    intro slash
    exact plain.1 (List.mem_of_getLast? slash)
  rw [normalize, List.splitOn_eq_singleton plain.1]
  simp [resolvePart, plain.2.1, plain.2.2.1, plain.2.2.2, ends]

/-- A name that is appended to a directory comes back as the last part of the
path exactly when it stands for itself. -/
theorem basename_join_iff (plain : Plain directory) :
    basename (join directory name) = name ↔ Plain name := by
  constructor
  · intro same
    have free : '/' ∉ name := same ▸ slash_notMem_basename _
    refine ⟨free, ?_, ?_, ?_⟩
    · rintro rfl
      rw [join, if_pos rfl, normalize_plain plain, basename_of_free plain.1] at same
      exact plain.2.1 same
    · rintro rfl
      have joined : join directory ['.'] = directory := by
        rw [join, if_neg (by simp), normalize, parts_append plain free,
          if_neg (not_ends_with_slash free (by simp))]
        simp [resolvePart]
      rw [joined, basename_of_free plain.1] at same
      exact plain.2.2.1 same
    · rintro rfl
      have joined : join directory ['.', '.'] = ['.'] := by
        rw [join, if_neg (by simp), normalize, parts_append plain free,
          if_neg (not_ends_with_slash free (by simp))]
        simp [resolvePart, plain.2.2.2]
      rw [joined] at same
      exact absurd same (by decide)
  · rintro ⟨free, some, noDot, noDots⟩
    have joined : join directory name = directory ++ '/' :: name := by
      rw [join, if_neg some, normalize, parts_append plain free,
        if_neg (not_ends_with_slash free some)]
      simp [resolvePart, some, noDot, noDots, List.intercalate_cons_cons]
    rw [joined]
    exact basename_append free some

end PosixPath

end Barycenter
