import Mathlib.Data.List.Basic

/-!
# Scripts and transactions

A script reads and writes a state, and may be refused half way; the state at
the refusal is part of its result.  A transaction runs a script and, when it is
refused, takes back what a rollback takes back.
-/

namespace Barycenter

/-- A script ends with a value or a refusal, and with the state it reached. -/
def Script (σ ε α : Type) : Type := σ → Except ε α × σ

namespace Script

variable {σ ε α β : Type}

def bind (first : Script σ ε α) (next : α → Script σ ε β) : Script σ ε β :=
  fun state =>
    match first state with
    | (.ok value, reached) => next value reached
    | (.error refusal, reached) => (.error refusal, reached)

instance : Monad (Script σ ε) where
  pure value := fun state => (.ok value, state)
  bind := bind

def refuse (refusal : ε) : Script σ ε α := fun state => (.error refusal, state)

def read (look : σ → α) : Script σ ε α := fun state => (.ok (look state), state)

def write (change : σ → σ) : Script σ ε Unit := fun state => (.ok (), change state)

def lift (outcome : Except ε α) : Script σ ε α := fun state => (outcome, state)

def require (condition : Prop) [Decidable condition] (refusal : ε) : Script σ ε Unit :=
  if condition then pure () else refuse refusal

def found (value : Option α) (refusal : ε) : Script σ ε α :=
  match value with
  | some value => pure value
  | none => refuse refusal

section Rules

variable {first : Script σ ε α} {next : α → Script σ ε β} {state final : σ} {result : β}
  {value output : α}

theorem bind_ok :
    (first >>= next) state = (.ok result, final) ↔
      ∃ value reached, first state = (.ok value, reached) ∧
        next value reached = (.ok result, final) := by
  change bind first next state = _ ↔ _
  unfold bind
  cases outcome : first state with
  | mk answer reached =>
      cases answer with
      | ok value | error refusal => simp

@[simp]
theorem pure_ok :
    (pure value : Script σ ε α) state = (.ok output, final) ↔
      value = output ∧ state = final := by
  change ((.ok value, state) : Except ε α × σ) = _ ↔ _
  simp

@[simp]
theorem pure_bind_ok {next : α → Script σ ε β} :
    ((pure value : Script σ ε α) >>= next) state = (.ok result, final) ↔
      next value state = (.ok result, final) :=
  Iff.rfl

variable {refusal : ε}

@[simp]
theorem refuse_ok : ¬(refuse refusal : Script σ ε α) state = (.ok output, final) := by
  simp [refuse]

@[simp]
theorem read_bind_ok {look : σ → α} :
    (read look >>= next) state = (.ok result, final) ↔
      next (look state) state = (.ok result, final) :=
  Iff.rfl

@[simp]
theorem write_ok {change : σ → σ} {done : Unit} :
    (write change : Script σ ε Unit) state = (.ok done, final) ↔ change state = final := by
  simp [write]

@[simp]
theorem write_bind_ok {change : σ → σ} {next : Unit → Script σ ε β} :
    (write change >>= next) state = (.ok result, final) ↔
      next () (change state) = (.ok result, final) :=
  Iff.rfl

@[simp]
theorem lift_bind_ok {outcome : Except ε α} :
    (lift outcome >>= next) state = (.ok result, final) ↔
      ∃ value, outcome = .ok value ∧ next value state = (.ok result, final) := by
  rw [bind_ok]
  cases outcome <;> simp [lift]

@[simp]
theorem require_bind_ok {condition : Prop} [Decidable condition] {next : Unit → Script σ ε β} :
    (require condition refusal >>= next) state = (.ok result, final) ↔
      condition ∧ next () state = (.ok result, final) := by
  unfold require
  by_cases holds : condition
  · rw [if_pos holds, pure_bind_ok, and_iff_right holds]
  · rw [if_neg holds, bind_ok]
    simp [holds]

@[simp]
theorem found_bind_ok {column : Option α} :
    (found column refusal >>= next) state = (.ok result, final) ↔
      ∃ value, column = some value ∧ next value state = (.ok result, final) := by
  rw [bind_ok]
  unfold found
  cases column <;> simp

theorem bind_assoc_ok {γ : Type} {second : α → Script σ ε β} {third : β → Script σ ε γ}
    {result : γ} :
    ((first >>= second) >>= third) state = (.ok result, final) ↔
      (first >>= fun value => second value >>= third) state = (.ok result, final) := by
  simp only [bind_ok]
  constructor
  · rintro ⟨middle, reached, ⟨value, earlier, ran, then_⟩, last⟩
    exact ⟨value, earlier, ran, middle, reached, then_, last⟩
  · rintro ⟨value, earlier, ran, middle, reached, then_, last⟩
    exact ⟨middle, reached, ⟨value, earlier, ran, then_⟩, last⟩

end Rules

/-! ## Transactions -/

/-- Run a script; after a refusal the state is what `undo` makes of the states
before and at the refusal. -/
def transact (undo : σ → σ → σ) (script : Script σ ε α) : Script σ ε α :=
  fun state =>
    match script state with
    | (.ok value, reached) => (.ok value, reached)
    | (.error refusal, reached) => (.error refusal, undo state reached)

theorem transact_ok {undo : σ → σ → σ} {script : Script σ ε α} {state final : σ} {value : α} :
    transact undo script state = (.ok value, final) ↔ script state = (.ok value, final) := by
  unfold transact
  cases outcome : script state with
  | mk answer reached => cases answer <;> simp

theorem transact_error {undo : σ → σ → σ} {script : Script σ ε α} {state final : σ}
    {refusal : ε} (refused : transact undo script state = (.error refusal, final)) :
    undo state (script state).2 = final := by
  unfold transact at refused
  cases outcome : script state with
  | mk answer reached =>
      rw [outcome] at refused
      cases answer with
      | ok value => simp at refused
      | error refusal => exact congrArg Prod.snd refused

end Script

end Barycenter
