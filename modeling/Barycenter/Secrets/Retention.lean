import Mathlib.Data.List.Sort

/-!
# Which secret versions a sweep removes

A stored version is named by its scheme, its name and an address of its content.
A sweep keeps the roots it was given, the newest versions of each name, and what
is younger than the minimum age; it removes the rest.  The policy is the same
whether the versions are directories or rows.
-/

namespace Barycenter.Secrets

/-- `store://name@version` is a certificate with its key, `key://name@version` a key
without a certificate. -/
inductive Scheme where
  | store
  | key
deriving DecidableEq, Repr

structure Ref where
  scheme : Scheme
  name : String
  version : String
deriving DecidableEq, Repr

structure SweepEntry where
  ref : Ref
  mtime : Nat
deriving DecidableEq, Repr

structure Policy where
  keepPerName : Nat := 2
  minAgeMs : Nat := 3600000

def byName (all : List SweepEntry) (scheme : Scheme) (name : String) : List SweepEntry :=
  (all.filter fun entry => entry.ref.scheme = scheme && entry.ref.name = name).insertionSort
    fun left right => right.mtime ≤ left.mtime

def protectedByAge (policy : Policy) (all : List SweepEntry) (entry : SweepEntry) : Bool :=
  ((byName all entry.ref.scheme entry.ref.name).take policy.keepPerName).any
    fun newest => newest.ref = entry.ref

def kept (policy : Policy) (roots : List Ref) (now : Nat) (all : List SweepEntry)
    (entry : SweepEntry) : Bool :=
  roots.contains entry.ref || protectedByAge policy all entry ||
    now < entry.mtime + policy.minAgeMs

def partitionForSweep (policy : Policy) (roots : List Ref) (now : Nat)
    (all : List SweepEntry) : List SweepEntry × List SweepEntry :=
  all.partition (kept policy roots now all)

theorem removed_spec {policy : Policy} {roots : List Ref} {now : Nat} {all : List SweepEntry}
    {entry : SweepEntry} (removed : entry ∈ (partitionForSweep policy roots now all).2) :
    entry ∈ all ∧ entry.ref ∉ roots ∧ entry.mtime + policy.minAgeMs ≤ now := by
  rw [partitionForSweep, List.partition_eq_filter_filter] at removed
  obtain ⟨member, notKept⟩ := List.mem_filter.mp removed
  have conditions : ¬ (entry.ref ∈ roots ∨ protectedByAge policy all entry = true) ∧
      ¬ now < entry.mtime + policy.minAgeMs := by
    simpa [kept, not_or] using notKept
  exact ⟨member, fun root => conditions.1 (.inl root), Nat.not_lt.mp conditions.2⟩

end Barycenter.Secrets
