import Mathlib.Data.List.Basic

/-!
# Runs of a labelled transition system

A run is kept with its history, because some properties are about two moments
of one run.  An invariant is established once for a single step and holds in
every state and at every event of a run.
-/

namespace Barycenter

structure Event (σ ℓ : Type) where
  before : σ
  label : ℓ
  after : σ

/-- The events of a history follow each other from `start` to `final`. -/
inductive Follows {σ ℓ : Type} (step : σ → ℓ → σ → Prop) :
    σ → List (Event σ ℓ) → σ → Prop where
  | nil (state : σ) : Follows step state [] state
  | cons {start middle final : σ} {label : ℓ} {history : List (Event σ ℓ)}
      (first : step start label middle) (later : Follows step middle history final) :
      Follows step start
        ({ before := start, label := label, after := middle } :: history) final

namespace Follows

variable {σ ℓ : Type} {step : σ → ℓ → σ → Prop} {start final : σ}
  {history : List (Event σ ℓ)}

theorem invariant (holds : σ → Prop) (run : Follows step start history final)
    (initially : holds start)
    (preserved : ∀ before label after, step before label after →
      holds before → holds after) :
    holds final := by
  induction run with
  | nil => exact initially
  | cons first later induction => exact induction (preserved _ _ _ first initially)

/-- What holds at the start and is preserved by every event of the run holds at
the end. -/
theorem invariant_along (holds : σ → Prop) (run : Follows step start history final)
    (initially : holds start)
    (preserved : ∀ event ∈ history, step event.before event.label event.after →
      holds event.before → holds event.after) :
    holds final := by
  induction run with
  | nil => exact initially
  | cons first later induction =>
      exact induction (preserved _ List.mem_cons_self first initially)
        fun event member => preserved event (List.mem_cons_of_mem _ member)

/-- The state in front of every event satisfies the invariant, and the event is
a step. -/
theorem at_events {holds : σ → Prop} (run : Follows step start history final)
    (initially : holds start)
    (preserved : ∀ before label after, step before label after →
      holds before → holds after) :
    ∀ event ∈ history,
      step event.before event.label event.after ∧ holds event.before := by
  induction run with
  | nil => simp
  | cons first later induction =>
      intro event member
      rcases List.mem_cons.mp member with rfl | old
      · exact ⟨first, initially⟩
      · exact induction (preserved _ _ _ first initially) event old

/-- What holds at the start and is preserved by every event of the run holds in
front of every event. -/
theorem throughout (holds : σ → Prop) (run : Follows step start history final)
    (initially : holds start)
    (preserved : ∀ event ∈ history, step event.before event.label event.after →
      holds event.before → holds event.after) :
    ∀ event ∈ history, holds event.before := by
  induction run with
  | nil => simp
  | cons first later induction =>
      have next := preserved _ List.mem_cons_self first initially
      intro event member
      rcases List.mem_cons.mp member with rfl | old
      · exact initially
      · exact induction next
          (fun event member => preserved event (List.mem_cons_of_mem _ member)) event old

/-- What holds of an empty past and is preserved by every event of the run holds
of the whole history at the end. -/
theorem with_past (holds : List (Event σ ℓ) → σ → Prop) (run : Follows step start history final)
    (initially : holds [] start)
    (preserved : ∀ past, ∀ event ∈ history, step event.before event.label event.after →
      holds past event.before → holds (past ++ [event]) event.after) :
    holds history final := by
  have onward : ∀ past, holds past start → holds (past ++ history) final := by
    clear initially
    induction run with
    | nil =>
        intro past holding
        simpa using holding
    | cons first later induction =>
        intro past holding
        have next := preserved past _ List.mem_cons_self first holding
        have rest := induction
          (fun past event member => preserved past event (List.mem_cons_of_mem _ member)) _ next
        simpa using rest
  simpa using onward [] initially

/-- Where, as long as the invariant holds, a step is good exactly when it is
careful, and a careful step keeps the invariant, all events of a run are good
exactly when all are careful. -/
theorem exactly (holds : σ → Prop) (good careful : Event σ ℓ → Prop)
    (run : Follows step start history final) (initially : holds start)
    (exact_step : ∀ event : Event σ ℓ, step event.before event.label event.after →
      holds event.before → (good event ↔ careful event))
    (preserved : ∀ event : Event σ ℓ, step event.before event.label event.after →
      holds event.before → careful event → holds event.after) :
    (∀ event ∈ history, good event) ↔ ∀ event ∈ history, careful event := by
  induction run with
  | nil => simp
  | @cons start middle final label history first later induction =>
      simp only [List.forall_mem_cons]
      have here := exact_step ⟨start, label, middle⟩ first initially
      constructor
      · rintro ⟨goodFirst, goodRest⟩
        have carefulFirst := here.mp goodFirst
        have next := preserved ⟨start, label, middle⟩ first initially carefulFirst
        exact ⟨carefulFirst, (induction next).mp goodRest⟩
      · rintro ⟨carefulFirst, carefulRest⟩
        have next := preserved ⟨start, label, middle⟩ first initially carefulFirst
        exact ⟨here.mpr carefulFirst, (induction next).mpr carefulRest⟩

/-- A measure that no step lowers is at least as large in front of an event as
after any earlier one. -/
theorem measure_ordered (measure : σ → Nat) (run : Follows step start history final)
    (monotone : ∀ event ∈ history, measure event.before ≤ measure event.after) :
    (∀ event ∈ history, measure start ≤ measure event.before) ∧
      history.Pairwise fun first second => measure first.after ≤ measure second.before := by
  induction run with
  | nil => simp
  | cons first later induction =>
      obtain ⟨above, ordered⟩ :=
        induction fun event member => monotone event (List.mem_cons_of_mem _ member)
      have raised := monotone _ List.mem_cons_self
      refine ⟨?_, List.Pairwise.cons above ordered⟩
      intro event member
      rcases List.mem_cons.mp member with rfl | old
      · exact Nat.le_refl _
      · exact Nat.le_trans raised (above event old)

theorem split {earlier later : List (Event σ ℓ)}
    (run : Follows step start (earlier ++ later) final) :
    ∃ middle, Follows step start earlier middle ∧ Follows step middle later final := by
  induction earlier generalizing start with
  | nil => exact ⟨start, .nil start, run⟩
  | cons event rest induction =>
      cases run with
      | cons first remaining =>
          obtain ⟨middle, reached, continued⟩ := induction remaining
          exact ⟨middle, .cons first reached, continued⟩

theorem append {middle : σ} {later : List (Event σ ℓ)}
    (first : Follows step start history middle) (second : Follows step middle later final) :
    Follows step start (history ++ later) final := by
  induction first with
  | nil => exact second
  | cons stepped _ induction => exact .cons stepped (induction second)

theorem among {good : Event σ ℓ → Prop} (run : Follows step start history final)
    (all : ∀ event ∈ history, good event) :
    Follows (fun before label after => step before label after ∧ good ⟨before, label, after⟩)
      start history final := by
  induction run with
  | nil state => exact .nil state
  | cons first later induction =>
      exact .cons ⟨first, all _ List.mem_cons_self⟩
        (induction fun event member => all event (List.mem_cons_of_mem _ member))

theorem constant {β : Type} (value : σ → β) (run : Follows step start history final)
    (unchanged : ∀ event ∈ history, value event.after = value event.before) :
    value final = value start := by
  induction run with
  | nil => rfl
  | cons first later induction =>
      have rest := induction fun event member =>
        unchanged event (List.mem_cons_of_mem _ member)
      rw [rest]
      exact unchanged _ List.mem_cons_self

/-- What no step ends, as long as the invariant holds, lasts to the end of the run. -/
theorem lasting (holds lasts : σ → Prop) (run : Follows step start history final)
    (initially : holds start)
    (preserved : ∀ before label after, step before label after →
      holds before → holds after)
    (kept : ∀ before label after, step before label after →
      holds before → lasts before → lasts after) :
    (lasts start → lasts final ∧ ∀ event ∈ history, lasts event.before) ∧
      (∀ event ∈ history, lasts event.after → lasts final) ∧
      history.Pairwise fun first second => lasts first.after → lasts second.before := by
  induction run with
  | nil => exact ⟨fun lasting => ⟨lasting, by simp⟩, by simp, .nil⟩
  | cons first later induction =>
      obtain ⟨fromStart, fromEvents, pairwise⟩ := induction (preserved _ _ _ first initially)
      refine ⟨?_, ?_, List.Pairwise.cons ?_ pairwise⟩
      · intro lasting
        obtain ⟨atEnd, atEvents⟩ := fromStart (kept _ _ _ first initially lasting)
        refine ⟨atEnd, fun event member => ?_⟩
        rcases List.mem_cons.mp member with rfl | old
        · exact lasting
        · exact atEvents event old
      · intro event member lasting
        rcases List.mem_cons.mp member with rfl | old
        · exact (fromStart lasting).1
        · exact fromEvents event old lasting
      · exact fun event member lasting => (fromStart lasting).2 event member

end Follows

/-- Execute a list of inputs, as far as every one of them can act. -/
def execute {σ ι ℓ : Type} (act : ι → σ → Option (ℓ × σ)) :
    List ι → σ → Option (List (Event σ ℓ) × σ)
  | [], state => some ([], state)
  | input :: rest, state =>
      match act input state with
      | none => none
      | some (label, next) =>
          (execute act rest next).map fun (history, final) =>
            ({ before := state, label := label, after := next } :: history, final)

theorem follows_of_execute {σ ι ℓ : Type} {act : ι → σ → Option (ℓ × σ)}
    (step : σ → ℓ → σ → Prop) (inputOf : ℓ → ι)
    (sound : ∀ input state label next, act input state = some (label, next) →
      step state label next ∧ inputOf label = input)
    {inputs : List ι} {state final : σ} {history : List (Event σ ℓ)}
    (executed : execute act inputs state = some (history, final)) :
    Follows step state history final ∧
      history.map (fun event => inputOf event.label) = inputs := by
  induction inputs generalizing state history with
  | nil =>
      simp only [execute, Option.some.injEq, Prod.mk.injEq] at executed
      obtain ⟨rfl, rfl⟩ := executed
      exact ⟨.nil state, rfl⟩
  | cons input rest induction =>
      simp only [execute] at executed
      split at executed
      · cases executed
      · rename_i label next acted
        simp only [Option.map_eq_some_iff, Prod.exists, Prod.mk.injEq] at executed
        obtain ⟨later, _, walked, rfl, rfl⟩ := executed
        obtain ⟨stepped, named⟩ := sound input state label next acted
        obtain ⟨run, labels⟩ := induction walked
        exact ⟨.cons stepped run, by simp [labels, named]⟩

/-- Some run of a system with at most one next state has these labels, and what
can be evaluated of it holds. -/
theorem follows_of_attempt {σ ℓ : Type} (act : σ → ℓ → Option σ) {start : σ} {labels : List ℓ}
    (holds : List (Event σ ℓ) × σ → Bool)
    (attempted : (execute (fun label state => (act state label).map (label, ·)) labels start).any
      holds = true) :
    ∃ history final, Follows (fun before label after => act before label = some after)
        start history final ∧
      history.map Event.label = labels ∧ holds (history, final) = true := by
  obtain ⟨⟨history, final⟩, executed, holding⟩ := (Option.any_eq_true _ _).mp attempted
  have sound : ∀ input state label next,
      (act state input).map (input, ·) = some (label, next) →
        act state label = some next ∧ id label = input := by
    intro input state label next acted
    obtain ⟨_, happened, pair⟩ := Option.map_eq_some_iff.mp acted
    cases pair
    exact ⟨happened, rfl⟩
  obtain ⟨run, labels⟩ := follows_of_execute
    (fun before label after => act before label = some after) id sound executed
  exact ⟨history, final, run, labels, holding⟩

/-- The history of a system whose next state is a function of its label. -/
def traced {σ ℓ : Type} (act : σ → ℓ → σ) : σ → List ℓ → List (Event σ ℓ)
  | _, [] => []
  | start, label :: rest =>
      { before := start, label := label, after := act start label } ::
        traced act (act start label) rest

theorem follows_traced {σ ℓ : Type} {step : σ → ℓ → σ → Prop} {act : σ → ℓ → σ}
    (sound : ∀ state label, step state label (act state label)) (start : σ) (labels : List ℓ) :
    Follows step start (traced act start labels) (labels.foldl act start) := by
  induction labels generalizing start with
  | nil => exact .nil start
  | cons label rest induction => exact .cons (sound start label) (induction _)

end Barycenter
