import Mathlib.Logic.Function.Basic

/-!
# Rows held by transactions

A transaction holds the rows it has locked until it ends.  What a transaction
knows of the store stays known as long as only other transactions publish and
no fact about a held row depends on the rows that these hold.
-/

namespace Barycenter

/-- The phases of the transactions, and the transaction that holds a row. -/
structure HeldRows (ρ π : Type) where
  held : ρ → Option Nat
  phases : Nat → π

namespace HeldRows

variable {ρ π : Type}

def start (idle : π) : HeldRows ρ π :=
  { held := fun _ => none
    phases := fun _ => idle }

def goes (locks : HeldRows ρ π) (transaction : Nat) (phase : π) : HeldRows ρ π :=
  { locks with phases := Function.update locks.phases transaction phase }

def ends (locks : HeldRows ρ π) (transaction : Nat) (idle : π) : HeldRows ρ π :=
  { held := fun row => if locks.held row = some transaction then none else locks.held row
    phases := Function.update locks.phases transaction idle }

def free (locks : HeldRows ρ π) (transaction : Nat) (row : ρ) : Bool :=
  locks.held row == none || locks.held row == some transaction

variable [DecidableEq ρ]

def takes (locks : HeldRows ρ π) (transaction : Nat) (rows : List ρ) (phase : π) :
    HeldRows ρ π :=
  { held := fun row => if row ∈ rows then some transaction else locks.held row
    phases := Function.update locks.phases transaction phase }

/-- Every transaction holds the rows of its phase, and what its phase knows of
the store is so. -/
structure Kept {σ : Type} (rows : π → List ρ) (known : σ → π → Prop) (store : σ)
    (locks : HeldRows ρ π) : Prop where
  holding : ∀ transaction, ∀ row ∈ rows (locks.phases transaction),
    locks.held row = some transaction
  known : ∀ transaction, known store (locks.phases transaction)

namespace Kept

variable {σ : Type} {rows : π → List ρ} {known : σ → π → Prop} {store : σ}
  {locks : HeldRows ρ π} {transaction : Nat} {phase idle : π}

omit [DecidableEq ρ] in
theorem start (empty : rows idle = []) (fact : known store idle) :
    Kept rows known store (HeldRows.start idle) where
  holding := by simp [HeldRows.start, empty]
  known := fun _ => fact

omit [DecidableEq ρ] in
theorem goes (kept : Kept rows known store locks)
    (within : ∀ row ∈ rows phase, row ∈ rows (locks.phases transaction))
    (fact : known store phase) :
    Kept rows known store (locks.goes transaction phase) where
  holding := by
    intro other row member
    by_cases same : other = transaction
    · subst same
      simp only [HeldRows.goes, Function.update_self] at member ⊢
      exact kept.holding other row (within row member)
    · simp only [HeldRows.goes, Function.update_of_ne same] at member ⊢
      exact kept.holding other row member
  known := by
    intro other
    by_cases same : other = transaction
    · subst same
      simpa only [HeldRows.goes, Function.update_self] using fact
    · simpa only [HeldRows.goes, Function.update_of_ne same] using kept.known other

theorem takes {taken : List ρ} (kept : Kept rows known store locks)
    (available : ∀ row ∈ taken, locks.free transaction row = true)
    (within : ∀ held ∈ rows phase, held ∈ taken ∨ held ∈ rows (locks.phases transaction))
    (fact : known store phase) :
    Kept rows known store (locks.takes transaction taken phase) where
  holding := by
    intro other held member
    by_cases same : other = transaction
    · subst same
      simp only [HeldRows.takes, Function.update_self] at member ⊢
      by_cases here : held ∈ taken
      · simp [here]
      · simpa [here] using kept.holding other held ((within held member).resolve_left here)
    · simp only [HeldRows.takes, Function.update_of_ne same] at member ⊢
      have owned := kept.holding other held member
      have elsewhere : held ∉ taken := by
        intro here
        have free := available held here
        simp [HeldRows.free, owned, same] at free
      simpa [elsewhere] using owned
  known := by
    intro other
    by_cases same : other = transaction
    · subst same
      simpa only [HeldRows.takes, Function.update_self] using fact
    · simpa only [HeldRows.takes, Function.update_of_ne same] using kept.known other

omit [DecidableEq ρ] in
theorem ends {next : σ} (kept : Kept rows known store locks) (empty : rows idle = [])
    (fact : known next idle)
    (frame : ∀ other, other ≠ transaction → known store (locks.phases other) →
      (∀ row ∈ rows (locks.phases other), row ∉ rows (locks.phases transaction)) →
      known next (locks.phases other)) :
    Kept rows known next (locks.ends transaction idle) where
  holding := by
    intro other row member
    by_cases same : other = transaction
    · subst same
      simp [HeldRows.ends, empty] at member
    · simp only [HeldRows.ends, Function.update_of_ne same] at member ⊢
      have owned := kept.holding other row member
      simp [owned, same]
  known := by
    intro other
    by_cases same : other = transaction
    · subst same
      simpa only [HeldRows.ends, Function.update_self] using fact
    · simp only [HeldRows.ends, Function.update_of_ne same]
      refine frame other same (kept.known other) ?_
      intro row mine theirs
      have owned := kept.holding other row mine
      rw [kept.holding transaction row theirs] at owned
      exact same (Option.some.inj owned).symm

end Kept

end HeldRows

end Barycenter
