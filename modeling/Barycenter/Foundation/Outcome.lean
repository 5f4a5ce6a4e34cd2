import Mathlib.Data.List.Basic

/-!
# Computations that may be refused

A refusable computation over a state returns either a refusal or a reply
together with the next state.  A proof about a success takes the computation
apart one bind at a time; a loop over a list is taken apart one element at a
time.
-/

namespace Barycenter

namespace Outcome

variable {ε σ ι α β : Type}

theorem bind_ok {first : Except ε α} {next : α → Except ε β} {result : β} :
    (first >>= next) = .ok result ↔
      ∃ value, first = .ok value ∧ next value = .ok result := by
  constructor
  · intro succeeded
    cases first with
    | error refusal => cases succeeded
    | ok value => exact ⟨value, rfl, succeeded⟩
  · rintro ⟨value, rfl, succeeded⟩
    exact succeeded

theorem map_ok {first : Except ε α} {change : α → β} {result : β} :
    first.map change = .ok result ↔ ∃ value, first = .ok value ∧ change value = result := by
  cases first with
  | error refusal | ok value => simp [Except.map]

theorem guard_ok {refused : Prop} [Decidable refused] {refusal : ε}
    {rest : Except ε α} {result : α} :
    (if refused then .error refusal else rest) = .ok result ↔
      ¬ refused ∧ rest = .ok result := by
  by_cases holds : refused <;> simp [holds]

theorem choice_ok {condition : Prop} [Decidable condition]
    {yes no : Except ε α} {result : α} :
    (if condition then yes else no) = .ok result ↔
      (condition ∧ yes = .ok result) ∨ (¬ condition ∧ no = .ok result) := by
  by_cases holds : condition <;> simp [holds]

/-- Run a refusable step once for each item, in order, collecting the replies. -/
def traverse (step : ι → σ → Except ε (α × σ)) :
    List ι → σ → Except ε (List α × σ)
  | [], state => .ok ([], state)
  | item :: rest, state => do
      let (reply, state) ← step item state
      let (replies, state) ← traverse step rest state
      return (reply :: replies, state)

variable {step : ι → σ → Except ε (α × σ)} {state : σ}

theorem traverse_nil {result : List α × σ} :
    traverse step [] state = .ok result ↔ ([], state) = result := by
  simp [traverse]

variable {final : σ} {replies : List α}

theorem traverse_cons {item : ι}
    {rest : List ι} :
    traverse step (item :: rest) state = .ok (replies, final) ↔
      ∃ reply middle others,
        step item state = .ok (reply, middle) ∧
          traverse step rest middle = .ok (others, final) ∧
          replies = reply :: others := by
  simp only [traverse, bind_ok, pure, Except.pure, Except.ok.injEq, Prod.exists,
    Prod.mk.injEq]
  constructor
  · rintro ⟨reply, middle, stepped, others, _, walked, rfl, rfl⟩
    exact ⟨reply, middle, others, stepped, walked, rfl⟩
  · rintro ⟨reply, middle, others, stepped, walked, rfl⟩
    exact ⟨reply, middle, stepped, others, final, walked, rfl, rfl⟩

theorem traverse_preserves {items : List ι}
    (kept : σ → Prop)
    (preserved : ∀ item ∈ items, ∀ state reply next,
      kept state → step item state = .ok (reply, next) → kept next)
    (start : kept state)
    (walked : traverse step items state = .ok (replies, final)) :
    kept final := by
  induction items generalizing state replies with
  | nil =>
      have ended := traverse_nil.mp walked
      simp only [Prod.mk.injEq] at ended
      exact ended.2 ▸ start
  | cons item rest induction =>
      obtain ⟨reply, middle, others, stepped, walkedRest, -⟩ := traverse_cons.mp walked
      exact induction
        (fun other member => preserved other (List.mem_cons_of_mem _ member))
        (preserved item List.mem_cons_self state reply middle start stepped)
        walkedRest

/-- A loop that succeeds has performed the step of each item in a state that
the loop keeps to. -/
theorem traverse_reaches {items : List ι}
    (kept : σ → Prop)
    (preserved : ∀ item ∈ items, ∀ state reply next,
      kept state → step item state = .ok (reply, next) → kept next)
    (start : kept state)
    (walked : traverse step items state = .ok (replies, final))
    {item : ι} (member : item ∈ items) :
    ∃ middle reply next, kept middle ∧ step item middle = .ok (reply, next) := by
  induction items generalizing state replies with
  | nil => cases member
  | cons first rest induction =>
      obtain ⟨reply, middle, others, stepped, walkedRest, -⟩ := traverse_cons.mp walked
      rcases List.mem_cons.mp member with rfl | later
      · exact ⟨state, reply, middle, start, stepped⟩
      · exact induction
          (fun other inside => preserved other (List.mem_cons_of_mem _ inside))
          (preserved first List.mem_cons_self state reply middle start stepped)
          walkedRest later

end Outcome

end Barycenter
