import Mathlib.Data.List.Basic

/-!
# Programs between a durable service and the outside world

A program performs operations of a service one at a time, reads a snapshot of
the service, and asks the outside world.  Every operation and every question
may come back with a fault, which the program may handle.

`exec` runs a program alone against an environment and keeps the trace: what
was asked, and every state the service made durable on the way.  A crash leaves
one of those states behind.  `Obeys` is the program logic: a contract says what
others may do between two steps and what the world may answer, and each step of
the program has to meet the contract's obligations.
-/

namespace Barycenter

/-- A durable service together with the questions a program may ask outside. -/
structure Interface where
  State : Type
  Fault : Type
  Op : Type
  Reply : Op → Type
  Call : Type
  Answer : Call → Type
  perform : (op : Op) → State → Except Fault (Reply op × State)

inductive Prog (I : Interface) (α : Type) : Type where
  | done (result : Except I.Fault α)
  | act (op : I.Op) (next : Except I.Fault (I.Reply op) → Prog I α)
  | look (next : I.State → Prog I α)
  | call (request : I.Call) (next : Except I.Fault (I.Answer request) → Prog I α)

namespace Prog

variable {I : Interface} {α β : Type}

def bind : Prog I α → (α → Prog I β) → Prog I β
  | done (.ok value), rest => rest value
  | done (.error fault), _ => done (.error fault)
  | act op next, rest => act op fun reply => (next reply).bind rest
  | look next, rest => look fun state => (next state).bind rest
  | call request next, rest => call request fun answer => (next answer).bind rest

def handle : Prog I α → (I.Fault → Prog I α) → Prog I α
  | done (.ok value), _ => done (.ok value)
  | done (.error fault), rescue => rescue fault
  | act op next, rescue => act op fun reply => (next reply).handle rescue
  | look next, rescue => look fun state => (next state).handle rescue
  | call request next, rescue => call request fun answer => (next answer).handle rescue

instance : Monad (Prog I) where
  pure value := done (.ok value)
  bind := bind

instance : MonadExceptOf I.Fault (Prog I) where
  throw fault := done (.error fault)
  tryCatch := handle

def perform (op : I.Op) : Prog I (I.Reply op) := act op done

def snapshot : Prog I I.State := look fun state => done (.ok state)

def ask (request : I.Call) : Prog I (I.Answer request) := call request done

end Prog

structure Environment (I : Interface) (W : Type) where
  answer : (request : I.Call) → I.State → W → Except I.Fault (I.Answer request) × W

structure Run (I : Interface) (W α : Type) where
  result : Except I.Fault α
  state : I.State
  world : W
  requests : List I.Call
  writes : List I.State

namespace Prog

variable {I : Interface} {W α β : Type}

def exec (E : Environment I W) : Prog I α → I.State → W → Run I W α
  | done result, state, world =>
      { result := result
        state := state
        world := world
        requests := []
        writes := [] }
  | act op next, state, world =>
      match I.perform op state with
      | .ok (reply, written) =>
          let rest := (next (.ok reply)).exec E written world
          { rest with writes := written :: rest.writes }
      | .error fault => (next (.error fault)).exec E state world
  | look next, state, world => (next state).exec E state world
  | call request next, state, world =>
      let answered := E.answer request state world
      let rest := (next answered.1).exec E state answered.2
      { rest with requests := request :: rest.requests }

variable {state : I.State} {world : W}

theorem exec_preserves (E : Environment I W) (kept : I.State → Prop)
    (preserved : ∀ op state reply next, kept state →
      I.perform op state = .ok (reply, next) → kept next) (program : Prog I α)
    (start : kept state) : kept (program.exec E state world).state := by
  induction program generalizing state world with
  | done result => exact start
  | act op next induction =>
      simp only [exec]
      split
      · rename_i reply written performed
        exact induction _ (preserved op state reply written start performed)
      · exact induction _ start
  | look next induction | call request next induction => exact induction _ start

/-- What a program relies on between its steps, and what it owes at each. -/
structure Contract (I : Interface) (W : Type) where
  /-- What the durable state may become while the program is between steps. -/
  rely : I.State → I.State → Prop
  /-- What the world may answer, and what becomes of it. -/
  answers : (request : I.Call) → I.State → W →
    Except I.Fault (I.Answer request) → W → Prop
  /-- Which operations may be issued. -/
  issued : I.Op → I.State → Prop
  /-- Which questions may be asked. -/
  requested : I.Call → I.State → Prop

/-- Every step of the program meets the contract, and it ends in `post`. -/
def Obeys (C : Contract I W) (post : Except I.Fault α → I.State → W → Prop) :
    Prog I α → I.State → W → Prop
  | done result, state, world => post result state world
  | act op next, state, world =>
      ∀ current, C.rely state current →
        C.issued op current ∧
          (∀ reply written, I.perform op current = .ok (reply, written) →
            (next (.ok reply)).Obeys C post written world) ∧
          (∀ fault, I.perform op current = .error fault →
            (next (.error fault)).Obeys C post current world)
  | look next, state, world =>
      ∀ current, C.rely state current → (next current).Obeys C post current world
  | call request next, state, world =>
      ∀ current, C.rely state current →
        C.requested request current ∧
          ∀ answer after, C.answers request current world answer after →
            (next answer).Obeys C post current after

section Rules

variable {C : Contract I W} {program : Prog I α}

/-- Programs are changed only where they end. -/
theorem Obeys.graft {middle : Except I.Fault α → I.State → W → Prop}
    {post : Except I.Fault β → I.State → W → Prop} (graft : Prog I α → Prog I β)
    (acts : ∀ op next, graft (act op next) = act op fun reply => graft (next reply))
    (looks : ∀ next, graft (look next) = look fun state => graft (next state))
    (calls : ∀ request next,
      graft (call request next) = call request fun answer => graft (next answer))
    (ends : ∀ result state world, middle result state world →
      (graft (done result)).Obeys C post state world) (first : program.Obeys C middle state world) :
    (graft program).Obeys C post state world := by
  induction program generalizing state world with
  | done result => exact ends result state world first
  | act op next induction =>
      rw [acts]
      intro current relied
      obtain ⟨issued, ok, error⟩ := first current relied
      exact ⟨issued, fun reply written performed => induction _ (ok reply written performed),
        fun fault failed => induction _ (error fault failed)⟩
  | look next induction =>
      rw [looks]
      intro current relied
      exact induction _ (first current relied)
  | call request next induction =>
      rw [calls]
      intro current relied
      obtain ⟨requested, answered⟩ := first current relied
      exact ⟨requested, fun answer after given => induction _ (answered answer after given)⟩

theorem Obeys.mono {first second : Except I.Fault α → I.State → W → Prop}
    (obeys : program.Obeys C first state world)
    (implied : ∀ result state world, first result state world → second result state world) :
    program.Obeys C second state world :=
  obeys.graft id (fun _ _ => rfl) (fun _ => rfl) (fun _ _ => rfl) implied

theorem Obeys.bind (middle : Except I.Fault α → I.State → W → Prop)
    {post : Except I.Fault β → I.State → W → Prop} {rest : α → Prog I β}
    (first : program.Obeys C middle state world)
    (proceed : ∀ value state world, middle (.ok value) state world →
      (rest value).Obeys C post state world)
    (fail : ∀ fault state world, middle (.error fault) state world →
      post (.error fault) state world) : (program >>= rest).Obeys C post state world := by
  refine first.graft (·.bind rest) (fun _ _ => rfl) (fun _ => rfl) (fun _ _ => rfl) ?_
  intro result state world ended
  cases result with
  | ok value => exact proceed value state world ended
  | error fault => exact fail fault state world ended

theorem Obeys.handle (middle : Except I.Fault α → I.State → W → Prop)
    {post : Except I.Fault α → I.State → W → Prop} {rescue : I.Fault → Prog I α}
    (first : program.Obeys C middle state world)
    (proceed : ∀ value state world, middle (.ok value) state world →
      post (.ok value) state world)
    (rescued : ∀ fault state world, middle (.error fault) state world →
      (rescue fault).Obeys C post state world) :
    (program.handle rescue).Obeys C post state world := by
  refine first.graft (·.handle rescue) (fun _ _ => rfl) (fun _ => rfl) (fun _ _ => rfl) ?_
  intro result state world ended
  cases result with
  | ok value => exact proceed value state world ended
  | error fault => exact rescued fault state world ended

variable {post : Except I.Fault β → I.State → W → Prop} {state : I.State} {world : W}

theorem Obeys.ok {value : β} (holds : post (.ok value) state world) :
    (pure value : Prog I β).Obeys C post state world :=
  holds

theorem Obeys.fault {fault : I.Fault} (holds : post (.error fault) state world) :
    (throw fault : Prog I β).Obeys C post state world :=
  holds

theorem Obeys.perform_then {op : I.Op} {rest : I.Reply op → Prog I β}
    (obeys : ∀ current, C.rely state current →
      C.issued op current ∧
        (∀ reply written, I.perform op current = .ok (reply, written) →
          (rest reply).Obeys C post written world) ∧
        (∀ fault, I.perform op current = .error fault →
          post (.error fault) current world)) :
    (perform op >>= rest).Obeys C post state world :=
  obeys

theorem Obeys.snapshot_then {rest : I.State → Prog I β}
    (obeys : ∀ current, C.rely state current →
      (rest current).Obeys C post current world) :
    (snapshot >>= rest).Obeys C post state world :=
  obeys

/-- A program that obeys its contract, run alone in a world that keeps to it,
ends in its postcondition and asks only what it may.  What its operations
preserve holds in every state it makes durable. -/
theorem Obeys.exec {post : Except I.Fault α → I.State → W → Prop} {E : Environment I W}
    (kept : I.State → Prop) (alone : ∀ state, kept state → C.rely state state)
    (answers : ∀ request state world,
      C.answers request state world
        (E.answer request state world).1 (E.answer request state world).2)
    (preserved : ∀ op state reply next, kept state → C.issued op state →
      I.perform op state = .ok (reply, next) → kept next) (start : kept state)
    (obeys : program.Obeys C post state world) :
    let run := program.exec E state world
    post run.result run.state run.world ∧ kept run.state ∧
      (∀ written ∈ run.writes, kept written) ∧
      (∀ request ∈ run.requests, ∃ asked, C.requested request asked) := by
  induction program generalizing state world with
  | done result => exact ⟨obeys, start, by simp [Prog.exec], by simp [Prog.exec]⟩
  | act op next induction =>
      obtain ⟨issued, ok, error⟩ := obeys state (alone state start)
      simp only [Prog.exec]
      split
      · rename_i reply written performed
        have next_kept := preserved op state reply written start issued performed
        obtain ⟨ended, final, writes, requests⟩ :=
          induction _ next_kept (ok reply written performed)
        exact ⟨ended, final, List.forall_mem_cons.mpr ⟨next_kept, writes⟩, requests⟩
      · rename_i fault failed
        exact induction _ start (error fault failed)
  | look next induction => exact induction _ start (obeys state (alone state start))
  | call request next induction =>
      obtain ⟨requested, answered⟩ := obeys state (alone state start)
      obtain ⟨ended, final, writes, requests⟩ :=
        induction _ start (answered _ _ (answers request state world))
      exact ⟨ended, final, writes,
        List.forall_mem_cons.mpr ⟨⟨state, requested⟩, requests⟩⟩

end Rules

end Prog

end Barycenter
