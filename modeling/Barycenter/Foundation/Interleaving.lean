import Barycenter.Foundation.Interaction

/-!
# A program amid others

`Amid` runs one program while others change the service between its steps, and
keeps what the program did, read and was told.  Nothing is assumed about the
world's answers.  What the program does after its last step is nothing, so the
state in which it ends is the state of the moment of its answer.
-/

namespace Barycenter

/-- A step of a program: what it did, and the service at that moment. -/
inductive Moment (I : Interface) where
  | did (op : I.Op) (state : I.State)
  | looked (state : I.State)
  | asked (request : I.Call) (state : I.State) (answer : Except I.Fault (I.Answer request))

namespace Prog

variable {I : Interface} {α β : Type}

/-- The program ran to its end while others did what `others` lets them. -/
inductive Amid (others : I.State → I.State → Prop) :
    Prog I α → I.State → List (Moment I) → Except I.Fault α → I.State → Prop where
  | done (result : Except I.Fault α) (state : I.State) :
      Amid others (.done result) state [] result state
  | performed {op : I.Op} {next : Except I.Fault (I.Reply op) → Prog I α}
      {state current written final : I.State} {reply : I.Reply op}
      {moments : List (Moment I)} {result : Except I.Fault α}
      (meanwhile : others state current)
      (succeeded : I.perform op current = .ok (reply, written))
      (later : Amid others (next (.ok reply)) written moments result final) :
      Amid others (.act op next) state (.did op current :: moments) result final
  | refused {op : I.Op} {next : Except I.Fault (I.Reply op) → Prog I α}
      {state current final : I.State} {fault : I.Fault}
      {moments : List (Moment I)} {result : Except I.Fault α}
      (meanwhile : others state current)
      (failed : I.perform op current = .error fault)
      (later : Amid others (next (.error fault)) current moments result final) :
      Amid others (.act op next) state (.did op current :: moments) result final
  | looked {next : I.State → Prog I α} {state current final : I.State}
      {moments : List (Moment I)} {result : Except I.Fault α}
      (meanwhile : others state current)
      (later : Amid others (next current) current moments result final) :
      Amid others (.look next) state (.looked current :: moments) result final
  | asked {request : I.Call} {next : Except I.Fault (I.Answer request) → Prog I α}
      {state current final : I.State} {moments : List (Moment I)}
      {result : Except I.Fault α} (answer : Except I.Fault (I.Answer request))
      (meanwhile : others state current)
      (later : Amid others (next answer) current moments result final) :
      Amid others (.call request next) state (.asked request current answer :: moments)
        result final

variable {others : I.State → I.State → Prop} {state final : I.State}
  {moments : List (Moment I)} {result : Except I.Fault β}

theorem amid_done {ended : Except I.Fault β} :
    Amid others (.done ended : Prog I β) state moments result final ↔
      moments = [] ∧ result = ended ∧ final = state := by
  constructor
  · intro amid
    cases amid
    exact ⟨rfl, rfl, rfl⟩
  · rintro ⟨rfl, rfl, rfl⟩
    exact .done _ _

theorem amid_pure {value : β} :
    Amid others (pure value : Prog I β) state moments result final ↔
      moments = [] ∧ result = .ok value ∧ final = state :=
  amid_done

theorem amid_look {rest : I.State → Prog I β} :
    Amid others (snapshot >>= rest) state moments result final ↔
      ∃ current later, others state current ∧ moments = .looked current :: later ∧
        Amid others (rest current) current later result final := by
  constructor
  · intro amid
    cases amid with
    | looked meanwhile later => exact ⟨_, _, meanwhile, rfl, later⟩
  · rintro ⟨current, later, meanwhile, rfl, amid⟩
    exact .looked meanwhile amid

theorem amid_ask {request : I.Call} {rest : I.Answer request → Prog I β} :
    Amid others (ask request >>= rest) state moments result final ↔
      ∃ current, others state current ∧
        ((∃ answer later, moments = .asked request current (.ok answer) :: later ∧
            Amid others (rest answer) current later result final) ∨
          ∃ fault, moments = [.asked request current (.error fault)] ∧
            result = .error fault ∧ final = current) := by
  constructor
  · intro amid
    cases amid with
    | asked answer meanwhile later =>
        cases answer with
        | ok value => exact ⟨_, meanwhile, .inl ⟨value, _, rfl, later⟩⟩
        | error fault =>
            obtain ⟨rfl, rfl, rfl⟩ := amid_done.mp later
            exact ⟨_, meanwhile, .inr ⟨fault, rfl, rfl, rfl⟩⟩
  · rintro ⟨current, meanwhile, ⟨answer, later, rfl, amid⟩ | ⟨fault, rfl, rfl, rfl⟩⟩
    · exact .asked (.ok answer) meanwhile amid
    · exact .asked (.error fault) meanwhile (.done _ _)

theorem amid_bind {program : Prog I α} {rest : α → Prog I β} :
    Amid others (program >>= rest) state moments result final ↔
      (∃ value earlier middle later, moments = earlier ++ later ∧
          Amid others program state earlier (.ok value) middle ∧
          Amid others (rest value) middle later result final) ∨
        ∃ fault, result = .error fault ∧
          Amid others program state moments (.error fault) final := by
  change Amid others (program.bind rest) state moments result final ↔ _
  constructor
  · intro amid
    induction program generalizing state moments with
    | done ended =>
        cases ended with
        | ok value => exact .inl ⟨value, [], state, moments, rfl, .done _ _, amid⟩
        | error fault =>
            obtain ⟨rfl, rfl, rfl⟩ := amid_done.mp amid
            exact .inr ⟨fault, rfl, .done _ _⟩
    | act op next induction =>
        cases amid with
        | performed meanwhile succeeded later =>
            rcases induction _ later with ⟨value, earlier, middle, rest, rfl, first, second⟩ |
              ⟨fault, rfl, first⟩
            · exact .inl ⟨value, _, middle, rest, rfl,
                .performed meanwhile succeeded first, second⟩
            · exact .inr ⟨fault, rfl, .performed meanwhile succeeded first⟩
        | refused meanwhile failed later =>
            rcases induction _ later with ⟨value, earlier, middle, rest, rfl, first, second⟩ |
              ⟨fault, rfl, first⟩
            · exact .inl ⟨value, _, middle, rest, rfl, .refused meanwhile failed first, second⟩
            · exact .inr ⟨fault, rfl, .refused meanwhile failed first⟩
    | look next induction =>
        cases amid with
        | looked meanwhile later =>
            rcases induction _ later with ⟨value, earlier, middle, rest, rfl, first, second⟩ |
              ⟨fault, rfl, first⟩
            · exact .inl ⟨value, _, middle, rest, rfl, .looked meanwhile first, second⟩
            · exact .inr ⟨fault, rfl, .looked meanwhile first⟩
    | call request next induction =>
        cases amid with
        | asked answer meanwhile later =>
            rcases induction _ later with ⟨value, earlier, middle, rest, rfl, first, second⟩ |
              ⟨fault, rfl, first⟩
            · exact .inl ⟨value, _, middle, rest, rfl, .asked answer meanwhile first, second⟩
            · exact .inr ⟨fault, rfl, .asked answer meanwhile first⟩
  · rintro (⟨value, earlier, middle, later, rfl, first, second⟩ | ⟨fault, rfl, first⟩)
    · generalize ended : (.ok value : Except I.Fault α) = outcome at first
      induction first with
      | done => subst ended; exact second
      | performed meanwhile succeeded _ induction =>
          exact .performed meanwhile succeeded (induction second ended)
      | refused meanwhile failed _ induction =>
          exact .refused meanwhile failed (induction second ended)
      | looked meanwhile _ induction => exact .looked meanwhile (induction second ended)
      | asked answer meanwhile _ induction =>
          exact .asked answer meanwhile (induction second ended)
    · generalize ended : (.error fault : Except I.Fault α) = outcome at first
      induction first with
      | done => subst ended; exact .done _ _
      | performed meanwhile succeeded _ induction =>
          exact .performed meanwhile succeeded (induction ended)
      | refused meanwhile failed _ induction =>
          exact .refused meanwhile failed (induction ended)
      | looked meanwhile _ induction => exact .looked meanwhile (induction ended)
      | asked answer meanwhile _ induction =>
          exact .asked answer meanwhile (induction ended)

end Prog

end Barycenter
