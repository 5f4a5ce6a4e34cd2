import Barycenter.Foundation.Pool

/-!
# Questions that have to be paid for

Some questions to the outside world may be asked only right behind an operation
that succeeded and bought them.  A program keeps to a tariff when it issues what
the tariff allows and asks no priced question that its last step did not buy.
In a pool of such programs every priced question has its purchase: the previous
step of the same program, with steps of other programs only in between.
-/

namespace Barycenter

/-- What others may do between two steps, which operations may be issued, which
questions have a price, and which operation buys them in which state. -/
structure Tariff (I : Interface) where
  rely : I.State → I.State → Prop
  issued : I.Op → I.State → Prop
  priced : I.Call → Prop
  buys : I.Op → I.State → I.Call → Prop

namespace Prog

variable {I : Interface} {α β : Type}

def nothing (_ : I.Call) : Prop := False

/-- Every step of the program keeps to the tariff, and it ends in `post`. -/
def Pays (T : Tariff I) (post : Except I.Fault α → I.State → Prop) :
    (I.Call → Prop) → Prog I α → I.State → Prop
  | _, done result, state => post result state
  | _, act op next, state =>
      ∀ current, T.rely state current →
        T.issued op current ∧
          (∀ reply written, I.perform op current = .ok (reply, written) →
            (next (.ok reply)).Pays T post (T.buys op current) written) ∧
          (∀ fault, I.perform op current = .error fault →
            (next (.error fault)).Pays T post nothing current)
  | _, look next, state =>
      ∀ current, T.rely state current → (next current).Pays T post nothing current
  | bought, call request next, state =>
      (T.priced request → bought request) ∧
        ∀ current, T.rely state current →
          ∀ answer, (next answer).Pays T post nothing current

section Rules

variable {T : Tariff I} {state : I.State} {bought : I.Call → Prop}

variable {program : Prog I α}

theorem Pays.mono {first second : Except I.Fault α → I.State → Prop}
    (pays : program.Pays T first bought state)
    (implied : ∀ result state, first result state → second result state) :
    program.Pays T second bought state := by
  induction program generalizing bought state with
  | done result => exact implied _ _ pays
  | act op next induction =>
      intro current relied
      obtain ⟨issued, ok, error⟩ := pays current relied
      exact ⟨issued, fun reply written performed => induction _ (ok reply written performed),
        fun fault failed => induction _ (error fault failed)⟩
  | look next induction => exact fun current relied => induction _ (pays current relied)
  | call request next induction =>
      exact ⟨pays.1, fun current relied answer => induction _ (pays.2 current relied answer)⟩

theorem Pays.more {post : Except I.Fault α → I.State → Prop}
    {more : I.Call → Prop} (pays : program.Pays T post bought state)
    (implied : ∀ request, bought request → more request) : program.Pays T post more state := by
  cases program with
  | done result | act op next | look next => exact pays
  | call request next => exact ⟨fun priced => implied _ (pays.1 priced), pays.2⟩

theorem Pays.bind (middle : Except I.Fault α → I.State → Prop)
    {post : Except I.Fault β → I.State → Prop} {rest : α → Prog I β}
    (first : program.Pays T middle bought state)
    (proceed : ∀ value bought state, middle (.ok value) state →
      (rest value).Pays T post bought state)
    (fail : ∀ fault state, middle (.error fault) state → post (.error fault) state) :
    (program >>= rest).Pays T post bought state := by
  change (program.bind rest).Pays T post bought state
  induction program generalizing bought state with
  | done result =>
      cases result with
      | ok value => exact proceed value bought state first
      | error fault => exact fail fault state first
  | act op next induction =>
      intro current relied
      obtain ⟨issued, ok, error⟩ := first current relied
      exact ⟨issued, fun reply written performed => induction _ (ok reply written performed),
        fun fault failed => induction _ (error fault failed)⟩
  | look next induction => exact fun current relied => induction _ (first current relied)
  | call request next induction =>
      exact ⟨first.1, fun current relied answer => induction _ (first.2 current relied answer)⟩

theorem Pays.handle (middle : Except I.Fault α → I.State → Prop)
    {post : Except I.Fault α → I.State → Prop}
    {rescue : I.Fault → Prog I α} (first : program.Pays T middle bought state)
    (proceed : ∀ value state, middle (.ok value) state → post (.ok value) state)
    (rescued : ∀ fault bought state, middle (.error fault) state →
      (rescue fault).Pays T post bought state) :
    (program.handle rescue).Pays T post bought state := by
  induction program generalizing bought state with
  | done result =>
      cases result with
      | ok value => exact proceed value state first
      | error fault => exact rescued fault bought state first
  | act op next induction =>
      intro current relied
      obtain ⟨issued, ok, error⟩ := first current relied
      exact ⟨issued, fun reply written performed => induction _ (ok reply written performed),
        fun fault failed => induction _ (error fault failed)⟩
  | look next induction => exact fun current relied => induction _ (first current relied)
  | call request next induction =>
      exact ⟨first.1, fun current relied answer => induction _ (first.2 current relied answer)⟩

end Rules

end Prog

/-! ## Pools -/

/-- What makes a tariff hold in a pool: nothing having happened, one thing after
the other, and every operation are among what programs rely on. -/
structure Tariff.Fair {I : Interface} (T : Tariff I) : Prop where
  alone : ∀ state, T.rely state state
  transitive : ∀ first second third,
    T.rely first second → T.rely second third → T.rely first third
  performed : ∀ op state reply written,
    I.perform op state = .ok (reply, written) → T.rely state written

namespace ServicePool

variable {I : Interface} {ι : Type} [DecidableEq ι] {T : Tariff I}

abbrev History (I : Interface) (ι : Type) := List (Event (ServicePool I ι) (Deed I ι))

def lastOf (past : History I ι) (thread : ι) : Option (Event (ServicePool I ι) (Deed I ι)) :=
  past.reverse.find? fun event => event.label.thread = thread

def Bought (T : Tariff I) (past : History I ι) (thread : ι) (request : I.Call) : Prop :=
  ∃ event op reply, lastOf past thread = some event ∧ event.label = .attempted thread op ∧
    I.perform op event.before.state = .ok (reply, event.after.state) ∧
    T.buys op event.before.state request

theorem lastOf_snoc (past : History I ι) (event : Event (ServicePool I ι) (Deed I ι)) (thread : ι) :
    lastOf (past ++ [event]) thread =
      if event.label.thread = thread then some event else lastOf past thread := by
  by_cases here : event.label.thread = thread <;> simp [lastOf, here]

variable {past : History I ι} {event : Event (ServicePool I ι) (Deed I ι)} {thread : ι}

theorem bought_snoc_other (apart : event.label.thread ≠ thread) :
    Bought T (past ++ [event]) thread = Bought T past thread := by
  funext request
  simp only [Bought, lastOf_snoc, if_neg apart]

theorem bought_snoc_self
    {request : I.Call} (bought : Bought T (past ++ [event]) event.label.thread request) :
    ∃ thread op reply, event.label = .attempted thread op ∧
      I.perform op event.before.state = .ok (reply, event.after.state) ∧
      T.buys op event.before.state request := by
  obtain ⟨last, op, reply, found, label, performed, buys⟩ := bought
  rw [lastOf_snoc, if_pos rfl] at found
  cases found
  exact ⟨_, op, reply, label, performed, buys⟩

theorem split_of_lastOf (last : lastOf past thread = some event) :
    ∃ earlier between, past = earlier ++ event :: between ∧
      ∀ other ∈ between, other.label.thread ≠ thread := by
  obtain ⟨-, later, earlier, split, others⟩ := List.find?_eq_some_iff_append.mp last
  refine ⟨earlier.reverse, later.reverse, ?_, ?_⟩
  · have reversed := congrArg List.reverse split
    simpa using reversed
  · intro other member
    have apart := others other (List.mem_reverse.mp member)
    simpa using apart

/-- Every thread keeps to the tariff, with what its last step bought. -/
def Solvent (T : Tariff I) (past : History I ι) (pool : ServicePool I ι) : Prop :=
  ∀ thread, ∃ seen, T.rely seen pool.state ∧
    (pool.threads thread).Pays T (fun _ _ => True) (Bought T past thread) seen

/-- The thread that moved keeps to the tariff from the new state, and the others
rely on what it did. -/
theorem Solvent.moved {pool : ServicePool I ι} (solvent : Solvent T past pool)
    (fair : T.Fair) {rest : Prog I Unit} {state : I.State} {deed : Deed I ι}
    (mine : deed.thread = thread) (relied : T.rely pool.state state)
    (pays : rest.Pays T (fun _ _ => True)
      (Bought T (past ++ [⟨pool, deed, { pool.continueWith thread rest with state := state }⟩])
        thread) state) :
    Solvent T (past ++ [⟨pool, deed, { pool.continueWith thread rest with state := state }⟩])
      { pool.continueWith thread rest with state := state } := by
  intro other
  by_cases same : other = thread
  · subst same
    refine ⟨state, fair.alone state, ?_⟩
    simpa [continueWith] using pays
  · obtain ⟨seen, before, others⟩ := solvent other
    refine ⟨seen, fair.transitive _ _ _ before relied, ?_⟩
    have apart : deed.thread ≠ other := fun equal => same (equal.symm.trans mine)
    rw [bought_snoc_other apart]
    simpa [continueWith, Function.update_of_ne same] using others

/-- What one step owes: an operation that may be issued, or a question that the
last step bought. -/
def Settled (T : Tariff I) (past : History I ι) (event : Event (ServicePool I ι) (Deed I ι)) : Prop :=
  (∀ thread op, event.label = .attempted thread op → T.issued op event.before.state) ∧
    ∀ thread request, event.label = .asked thread request → T.priced request →
      Bought T past thread request

theorem Solvent.step (solvent : Solvent T past event.before) (fair : T.Fair)
    (step : Step event.before event.label event.after) :
    Settled T past event ∧ Solvent T (past ++ [event]) event.after := by
  obtain ⟨before, label, after⟩ := event
  have step : Step before label after := step
  cases step with
  | performed thread op next reply written turn succeeded =>
      obtain ⟨seen, relied, pays⟩ := solvent thread
      rw [turn] at pays
      obtain ⟨issued, ok, -⟩ := pays _ relied
      refine ⟨⟨fun _ _ same => ?_, nofun⟩, ?_⟩
      · cases same
        exact issued
      · refine solvent.moved fair rfl (fair.performed op _ reply written succeeded) ?_
        refine (ok reply written succeeded).more fun request buys => ?_
        exact ⟨_, op, reply, by rw [lastOf_snoc]; exact if_pos rfl, rfl, succeeded, buys⟩
  | refused thread op next fault turn failed =>
      obtain ⟨seen, relied, pays⟩ := solvent thread
      rw [turn] at pays
      obtain ⟨issued, -, error⟩ := pays _ relied
      refine ⟨⟨fun _ _ same => ?_, nofun⟩, ?_⟩
      · cases same
        exact issued
      · exact solvent.moved fair rfl (fair.alone _) ((error fault failed).more fun _ => False.elim)
  | looked thread next turn =>
      obtain ⟨seen, relied, pays⟩ := solvent thread
      rw [turn] at pays
      exact ⟨⟨nofun, nofun⟩,
        solvent.moved fair rfl (fair.alone _) ((pays _ relied).more fun _ => False.elim)⟩
  | asked thread request next answer turn =>
      obtain ⟨seen, relied, pays⟩ := solvent thread
      rw [turn] at pays
      refine ⟨⟨nofun, fun _ _ same priced => ?_⟩, ?_⟩
      · cases same
        exact pays.1 priced
      · exact solvent.moved fair rfl (fair.alone _)
          ((pays.2 _ relied answer).more fun _ => False.elim)

theorem Step.effect {before after : ServicePool I ι} {label : Deed I ι}
    (step : Step before label after) :
    after.state = before.state ∨ ∃ thread op reply, label = .attempted thread op ∧
      I.perform op before.state = .ok (reply, after.state) := by
  cases step with
  | performed thread op next reply written turn succeeded =>
      exact .inr ⟨thread, op, reply, rfl, succeeded⟩
  | refused thread op next fault turn failed | looked thread next turn
    | asked thread request next answer turn => exact .inl rfl

theorem Solvent.run {start final : ServicePool I ι} {history : History I ι}
    (run : Follows Step start history final) (solvent : Solvent T [] start) (fair : T.Fair) :
    (∀ earlier event later, history = earlier ++ event :: later → Settled T earlier event) ∧
      Solvent T history final := by
  have onward {past : History I ι} {reached : ServicePool I ι} (part : Follows Step start past reached) :
      Solvent T past reached :=
    part.with_past _ solvent fun _ _ _ step before => (before.step fair step).2
  refine ⟨?_, onward run⟩
  rintro earlier event later rfl
  obtain ⟨middle, reached, continued⟩ := run.split
  cases continued with
  | cons first later => exact ((onward reached).step fair first).1

end ServicePool

end Barycenter
