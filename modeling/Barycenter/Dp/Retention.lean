import Mathlib.Data.List.Sort

/-!
# The cap on kept generations

Old generation directories are removed in the order of their modification times.
The caller names the generations that must stay.  Behind the kept number a
directory still stays while the one made after it is younger than the time a
worker may linger: that is when it is taken to have left service.
-/

namespace Barycenter.Dp

/-- `DEFAULT_KEEP` -/
def DEFAULT_KEEP : Int := 10

structure SweepResult where
  kept : List String
  removed : List String
  failed : List (String × String)
deriving DecidableEq, Repr

structure SweepOptions where
  keep : Option Int := none
  /-- The generations that must not be removed. -/
  protect : List String
  workerLingerMs : Option Nat := none
  now : Nat

/-- What the file system answers: the directories in the order they are listed,
their modification times, and why one cannot be removed. -/
structure GenerationFiles where
  entries : List String
  mtimeMs : String → Option Nat
  rmFault : String → Option String

structure Candidate where
  name : String
  mtime : Nat
deriving DecidableEq, Repr

def candidatesOf (files : GenerationFiles) (protect : List String) : List Candidate :=
  let listed := (files.entries.filter fun name => name ∉ protect).filter fun name =>
    name ≠ "bootstrap"
  (listed.map fun name => ⟨name, (files.mtimeMs name).getD 0⟩).insertionSort
    fun left right : Candidate => right.mtime ≤ left.mtime

/-- The directories that may still be held by a lingering worker. -/
def stillHeld (candidates : List Candidate) (linger : Option Nat) (now : Nat) : List String :=
  match linger with
  | none => []
  | some linger =>
      (candidates.zip candidates.tail).filterMap fun (younger, older) =>
        if (now : Int) - younger.mtime < linger then some older.name else none

/-- The directories beyond the kept number that nobody holds. -/
def doomedOf (candidates : List Candidate) (keep : Nat) (held : List String) : List String :=
  ((candidates.drop keep).filter fun candidate => candidate.name ∉ held).map Candidate.name

def sweepGenerations (files : GenerationFiles) (opts : SweepOptions) : SweepResult :=
  let keep := opts.keep.getD DEFAULT_KEEP
  if keep ≤ 0 then ⟨[], [], []⟩
  else
    let candidates := candidatesOf files opts.protect
    let held := stillHeld candidates opts.workerLingerMs opts.now
    let doomed := doomedOf candidates keep.toNat held
    { kept := opts.protect.eraseDups ++ (candidates.take keep.toNat).map Candidate.name ++
        ((candidates.drop keep.toNat).filter fun candidate => candidate.name ∈ held).map
          Candidate.name
      removed := doomed.filter fun name => (files.rmFault name).isNone
      failed := doomed.filterMap fun name => (files.rmFault name).map (name, ·) }

section Specification

variable {files : GenerationFiles} {opts : SweepOptions}

variable {name : String}

end Specification

end Barycenter.Dp
