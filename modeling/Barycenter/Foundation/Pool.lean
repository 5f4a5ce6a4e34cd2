import Mathlib.Logic.Function.Basic
import Barycenter.Foundation.History
import Barycenter.Foundation.Interaction

/-!
# Programs that run side by side

A pool holds one durable service and any number of programs in the middle of
their work.  At each step one of them performs an operation, is refused one,
reads the service, or is answered by the outside world, which may answer
anything.  A program that is never scheduled again has crashed.

When every program obeys a contract on its own, and what one of them may do is
something the others rely on, the contract holds in every interleaving.
-/

namespace Barycenter

/-- A service and the programs that use it, each with what is left of it. -/
structure ServicePool (I : Interface) (ι : Type) where
  state : I.State
  threads : ι → Prog I Unit

inductive Deed (I : Interface) (ι : Type) where
  | attempted (thread : ι) (op : I.Op)
  | looked (thread : ι)
  | asked (thread : ι) (request : I.Call)

def Deed.thread {I : Interface} {ι : Type} : Deed I ι → ι
  | attempted thread _ | looked thread | asked thread _ => thread

namespace ServicePool

variable {I : Interface} {ι : Type} [DecidableEq ι]

def continueWith (pool : ServicePool I ι) (thread : ι) (rest : Prog I Unit) : ServicePool I ι :=
  { pool with threads := Function.update pool.threads thread rest }

inductive Step : ServicePool I ι → Deed I ι → ServicePool I ι → Prop where
  | performed (pool : ServicePool I ι) (thread : ι) (op : I.Op)
      (next : Except I.Fault (I.Reply op) → Prog I Unit)
      (reply : I.Reply op) (written : I.State)
      (turn : pool.threads thread = .act op next)
      (succeeded : I.perform op pool.state = .ok (reply, written)) :
      Step pool (.attempted thread op)
        { pool.continueWith thread (next (.ok reply)) with state := written }
  | refused (pool : ServicePool I ι) (thread : ι) (op : I.Op)
      (next : Except I.Fault (I.Reply op) → Prog I Unit) (fault : I.Fault)
      (turn : pool.threads thread = .act op next)
      (failed : I.perform op pool.state = .error fault) :
      Step pool (.attempted thread op) (pool.continueWith thread (next (.error fault)))
  | looked (pool : ServicePool I ι) (thread : ι) (next : I.State → Prog I Unit)
      (turn : pool.threads thread = .look next) :
      Step pool (.looked thread) (pool.continueWith thread (next pool.state))
  | asked (pool : ServicePool I ι) (thread : ι) (request : I.Call)
      (next : Except I.Fault (I.Answer request) → Prog I Unit)
      (answer : Except I.Fault (I.Answer request))
      (turn : pool.threads thread = .call request next) :
      Step pool (.asked thread request) (pool.continueWith thread (next answer))

end ServicePool

/-- What makes a contract hold in a pool: programs may rely on nothing having
happened, on one thing after the other, and on what an operation that may be
issued does to a state that satisfies the invariant. -/
structure Discipline {I : Interface} (C : Prog.Contract I Unit) (holds : I.State → Prop)
    (allowed : I.Op → I.State → Prop) : Prop where
  alone : ∀ state, holds state → C.rely state state
  transitive : ∀ first second third,
    C.rely first second → C.rely second third → C.rely first third
  answers : ∀ request state answer, C.answers request state () answer ()
  preserved : ∀ op state reply written, holds state → C.issued op state →
    allowed op state → I.perform op state = .ok (reply, written) →
      holds written ∧ C.rely state written

namespace ServicePool

variable {I : Interface} {ι : Type} [DecidableEq ι] {C : Prog.Contract I Unit}
  {holds : I.State → Prop} {allowed : I.Op → I.State → Prop}

/-- The invariant holds, and every program obeys its contract from a state it
has seen. -/
structure Sound (C : Prog.Contract I Unit) (holds : I.State → Prop)
    (pool : ServicePool I ι) : Prop where
  standing : holds pool.state
  owed : ∀ thread, ∃ seen, C.rely seen pool.state ∧
    (pool.threads thread).Obeys C (fun _ _ _ => True) seen ()

variable {thread : ι}

theorem Sound.issued {pool : ServicePool I ι} (sound : Sound C holds pool) {op : I.Op}
    {next : Except I.Fault (I.Reply op) → Prog I Unit} (turn : pool.threads thread = .act op next) :
    C.issued op pool.state := by
  obtain ⟨seen, relied, obeys⟩ := sound.owed thread
  rw [turn] at obeys
  exact (obeys _ relied).1

theorem Sound.attempted {before after : ServicePool I ι} {op : I.Op}
    (sound : Sound C holds before) (step : Step before (.attempted thread op) after) :
    C.issued op before.state := by
  cases step with
  | performed _ _ next reply written turn succeeded | refused _ _ next fault turn failed =>
      exact sound.issued turn

/-- The thread that moved obeys from the new state, and the others rely on what
it did. -/
theorem Sound.moved {pool : ServicePool I ι} (sound : Sound C holds pool)
    (discipline : Discipline C holds allowed) {rest : Prog I Unit} {state : I.State}
    (standing : holds state) (relied : C.rely pool.state state)
    (obeys : rest.Obeys C (fun _ _ _ => True) state ()) :
    Sound C holds { pool.continueWith thread rest with state := state } := by
  refine ⟨standing, fun other => ?_⟩
  by_cases same : other = thread
  · subst same
    refine ⟨state, discipline.alone state standing, ?_⟩
    simpa [continueWith] using obeys
  · obtain ⟨seen, before, others⟩ := sound.owed other
    refine ⟨seen, discipline.transitive _ _ _ before relied, ?_⟩
    simpa [continueWith, Function.update_of_ne same] using others

theorem Sound.step {before after : ServicePool I ι} {deed : Deed I ι}
    (sound : Sound C holds before) (discipline : Discipline C holds allowed)
    (step : Step before deed after)
    (kept : ∀ thread op, deed = .attempted thread op → allowed op before.state) :
    Sound C holds after := by
  have still := discipline.alone _ sound.standing
  cases step with
  | performed thread op next reply written turn succeeded =>
      obtain ⟨seen, relied, obeys⟩ := sound.owed thread
      rw [turn] at obeys
      obtain ⟨issued, ok, -⟩ := obeys _ relied
      obtain ⟨standing, moved⟩ := discipline.preserved op _ reply written sound.standing
        issued (kept thread op rfl) succeeded
      exact sound.moved discipline standing moved (ok reply written succeeded)
  | refused thread op next fault turn failed =>
      obtain ⟨seen, relied, obeys⟩ := sound.owed thread
      rw [turn] at obeys
      obtain ⟨-, -, error⟩ := obeys _ relied
      exact sound.moved discipline sound.standing still (error fault failed)
  | looked thread next turn =>
      obtain ⟨seen, relied, obeys⟩ := sound.owed thread
      rw [turn] at obeys
      exact sound.moved discipline sound.standing still (obeys _ relied)
  | asked thread request next answer turn =>
      obtain ⟨seen, relied, obeys⟩ := sound.owed thread
      rw [turn] at obeys
      exact sound.moved discipline sound.standing still
        ((obeys _ relied).2 answer () (discipline.answers request _ answer))

/-- A run of a pool whose attempts are all allowed keeps to the contract in
front of every step and at the end. -/
theorem Sound.run {start final : ServicePool I ι} {history : List (Event (ServicePool I ι) (Deed I ι))}
    (run : Follows Step start history final) (sound : Sound C holds start)
    (discipline : Discipline C holds allowed)
    (kept : ∀ event ∈ history, ∀ thread op, event.label = .attempted thread op →
      allowed op event.before.state) :
    (∀ event ∈ history, Sound C holds event.before) ∧ Sound C holds final := by
  have preserved : ∀ event ∈ history, Step event.before event.label event.after →
      Sound C holds event.before → Sound C holds event.after :=
    fun event member step sound => sound.step discipline step (kept event member)
  exact ⟨run.throughout _ sound preserved, run.invariant_along _ sound preserved⟩

/-! ## Schedules -/

/-- Run a program alone for a number of steps, with the given answers. -/
def proceed (answers : (request : I.Call) → Except I.Fault (I.Answer request)) :
    Nat → Prog I Unit → I.State → Prog I Unit × I.State
  | 0, program, state => (program, state)
  | _ + 1, .done result, state => (.done result, state)
  | steps + 1, .act op next, state =>
      match I.perform op state with
      | .ok (reply, written) => proceed answers steps (next (.ok reply)) written
      | .error fault => proceed answers steps (next (.error fault)) state
  | steps + 1, .look next, state => proceed answers steps (next state) state
  | steps + 1, .call request next, state =>
      proceed answers steps (next (answers request)) state

/-- A number of steps of one thread, and what it is answered meanwhile. -/
structure Turn (I : Interface) (ι : Type) where
  thread : ι
  steps : Nat
  answers : (request : I.Call) → Except I.Fault (I.Answer request)

theorem continueWith_threads (pool : ServicePool I ι) (thread : ι) (rest : Prog I Unit) :
    (pool.continueWith thread rest).threads thread = rest :=
  Function.update_self ..

def advanced (pool : ServicePool I ι) (thread : ι) (reached : Prog I Unit × I.State) : ServicePool I ι :=
  { pool.continueWith thread reached.1 with state := reached.2 }

theorem advanced_twice (pool : ServicePool I ι) (thread : ι) (first second : Prog I Unit × I.State) :
    (pool.advanced thread first).advanced thread second = pool.advanced thread second := by
  simp [advanced, continueWith]

theorem advanced_threads (pool : ServicePool I ι) (thread : ι) (reached : Prog I Unit × I.State) :
    (pool.advanced thread reached).threads thread = reached.1 :=
  continueWith_threads ..

theorem advanced_self (pool : ServicePool I ι) (thread : ι) :
    pool.advanced thread (pool.threads thread, pool.state) = pool := by
  simp [advanced, continueWith]

theorem follows_proceed (answers : (request : I.Call) → Except I.Fault (I.Answer request))
    (steps : Nat) (pool : ServicePool I ι) (thread : ι) (program : Prog I Unit) (state : I.State) :
    ∃ history, Follows Step (pool.advanced thread (program, state)) history
      (pool.advanced thread (proceed answers steps program state)) := by
  induction steps generalizing program state with
  | zero => exact ⟨[], .nil _⟩
  | succ steps induction =>
      have onward {label : Deed I ι} {next : Prog I Unit × I.State}
          (step : Step (pool.advanced thread (program, state)) label
            ((pool.advanced thread (program, state)).advanced thread next))
          (same : proceed answers (steps + 1) program state =
            proceed answers steps next.1 next.2) :
          ∃ history, Follows Step (pool.advanced thread (program, state)) history
            (pool.advanced thread (proceed answers (steps + 1) program state)) := by
        obtain ⟨history, run⟩ := induction next.1 next.2
        rw [advanced_twice] at step
        rw [same]
        exact ⟨_, .cons step run⟩
      cases program with
      | done result => exact ⟨[], .nil _⟩
      | act op next =>
          cases outcome : I.perform op state with
          | ok written =>
              obtain ⟨reply, written⟩ := written
              exact @onward _ (next (.ok reply), written)
                (.performed _ thread op next reply written (advanced_threads ..) outcome)
                (by simp only [proceed, outcome])
          | error fault =>
              exact @onward _ (next (.error fault), state)
                (.refused _ thread op next fault (advanced_threads ..) outcome)
                (by simp only [proceed, outcome])
      | look next =>
          exact @onward _ (next state, state)
            (.looked _ thread next (advanced_threads ..)) rfl
      | call request next =>
          exact @onward _ (next (answers request), state)
            (.asked _ thread request next (answers request) (advanced_threads ..)) rfl

def stepOf (answers : (request : I.Call) → Except I.Fault (I.Answer request))
    (thread : ι) (pool : ServicePool I ι) : Option (Deed I ι × ServicePool I ι) :=
  match pool.threads thread with
  | .done _ => none
  | .act op next =>
      match I.perform op pool.state with
      | .ok (reply, written) =>
          some (.attempted thread op,
            { pool.continueWith thread (next (.ok reply)) with state := written })
      | .error fault =>
          some (.attempted thread op, pool.continueWith thread (next (.error fault)))
  | .look next => some (.looked thread, pool.continueWith thread (next pool.state))
  | .call request next =>
      some (.asked thread request, pool.continueWith thread (next (answers request)))

theorem step_of_stepOf {answers : (request : I.Call) → Except I.Fault (I.Answer request)}
    {pool after : ServicePool I ι} {deed : Deed I ι}
    (stepped : stepOf answers thread pool = some (deed, after)) :
    Step pool deed after ∧ deed.thread = thread := by
  simp only [stepOf] at stepped
  split at stepped
  · cases stepped
  · rename_i op next turn
    split at stepped
    · rename_i reply written succeeded
      cases stepped
      exact ⟨.performed pool thread op next reply written turn succeeded, rfl⟩
    · rename_i fault failed
      cases stepped
      exact ⟨.refused pool thread op next fault turn failed, rfl⟩
  · rename_i next turn
    cases stepped
    exact ⟨.looked pool thread next turn, rfl⟩
  · rename_i request next turn
    cases stepped
    exact ⟨.asked pool thread request next (answers request) turn, rfl⟩

theorem follows_of_stepOf {answers : (request : I.Call) → Except I.Fault (I.Answer request)}
    {order : List ι} {pool final : ServicePool I ι} {history : List (Event (ServicePool I ι) (Deed I ι))}
    (executed : execute (stepOf answers) order pool = some (history, final)) :
    Follows Step pool history final :=
  (follows_of_execute Step Deed.thread
    (fun _ _ _ _ => step_of_stepOf) executed).1

def play : List (Turn I ι) → ServicePool I ι → ServicePool I ι
  | [], pool => pool
  | turn :: rest, pool =>
      play rest <| pool.advanced turn.thread <|
        proceed turn.answers turn.steps (pool.threads turn.thread) pool.state

theorem follows_play (turns : List (Turn I ι)) (pool : ServicePool I ι) :
    ∃ history, Follows Step pool history (play turns pool) := by
  induction turns generalizing pool with
  | nil => exact ⟨[], .nil pool⟩
  | cons turn rest induction =>
      obtain ⟨first, run⟩ := follows_proceed turn.answers turn.steps pool turn.thread
        (pool.threads turn.thread) pool.state
      obtain ⟨later, remaining⟩ := induction <| pool.advanced turn.thread <|
        proceed turn.answers turn.steps (pool.threads turn.thread) pool.state
      rw [advanced_self] at run
      exact ⟨first ++ later, run.append remaining⟩

end ServicePool

end Barycenter
