import Barycenter.Dp.AgentRuns
import Barycenter.Dp.DriverRuns
import Barycenter.Foundation.Interleaving

/-!
# What reconciliation answers

Reconciliation runs amid other operations of the driver, of which nothing is
assumed: they may do anything to the agent at every wait.  What it grants is
true at the moment of the answer, because it reads the agent once more after its
last wait.  Its leases are checked by the effects right before what cannot be
undone, so what lands under one finds the baseline settled.
-/

namespace Barycenter.Dp

open Prog

def ReconcileResult.granted : ReconcileResult → Option PublishRecord
  | .converged record => some record
  | .repaired expected _ => some expected
  | _ => none

def EffectCall.lease : EffectCall → Option Lease
  | publish _ lease | signalReload lease | stageMembership _ _ lease => some lease
  | _ => none

/-- The very last thing was to see the record published by its owner, to see its
activation proved, and to read the agent. -/
def Proven (record : PublishRecord) (moments : List (Moment dataplane))
    (read : AgentState) : Prop :=
  ∃ earlier atPublished atActivation evidence,
    moments = earlier ++
      [.asked .observePublished atPublished (.ok (.owned record)),
        .asked .observeActivation atActivation (.ok evidence), .looked read] ∧
      provesActivation evidence record.generation = true

def Honest (moments : List (Moment dataplane)) (answer : ReconcileResult)
    (final : AgentState) : Prop :=
  ∀ record, answer.granted = some record →
    final.lastActivated = some record ∧ unfinishedIn final = none ∧
      Proven record moments final

/-- Every lease that was given away is one of reconciliation. -/
def Leased (moments : List (Moment dataplane)) : Prop :=
  ∀ request state answer, Moment.asked request state answer ∈ moments →
    ∀ lease, request.lease = some lease → ∃ expected, lease = .reconcile expected

theorem Leased.nil : Leased [] := by
  intro request state answer member
  cases member

variable {moments : List (Moment dataplane)}

theorem Leased.looked (leased : Leased moments)
    (read : AgentState) : Leased (.looked read :: moments) := by
  intro request state answer member
  rcases List.mem_cons.mp member with same | later
  · cases same
  · exact leased request state answer later

theorem Leased.asked (leased : Leased moments)
    {request : EffectCall} {state : AgentState}
    {answer : Except Thrown request.Answer}
    (mine : ∀ lease, request.lease = some lease → ∃ expected, lease = .reconcile expected) :
    Leased (@Moment.asked dataplane request state answer :: moments) := by
  intro other at_ reply member
  rcases List.mem_cons.mp member with same | later
  · cases same
    exact mine
  · exact leased other at_ reply later

variable {earlier later : List (Moment dataplane)}

theorem Leased.append (first : Leased earlier) (second : Leased later) :
    Leased (earlier ++ later) := by
  intro request state answer member
  rcases List.mem_append.mp member with before | after
  · exact first request state answer before
  · exact second request state answer after

variable {answer : ReconcileResult}

theorem Honest.after {final : AgentState} (honest : Honest later answer final) :
    Honest (earlier ++ later) answer final := by
  intro record granted
  obtain ⟨baseline, ended, before, atPublished, atActivation, evidence, rfl, proves⟩ :=
    honest record granted
  exact ⟨baseline, ended, earlier ++ before, atPublished, atActivation, evidence,
    (List.append_assoc ..).symm, proves⟩

theorem honest_of_ungranted {final : AgentState} (ungranted : answer.granted = none) :
    Honest moments answer final := by
  intro record granted
  rw [ungranted] at granted
  cases granted

variable {s : AgentState} {expected : PublishRecord}

theorem settled_iff :
    settled s expected = .settled ↔
      unfinishedIn s = none ∧ s.lastActivated = some expected := by
  unfold settled
  cases unfinishedIn s with
  | some pending | none => simp

/-- What lands under a lease of reconciliation finds the baseline settled and
its token not older than the newest. -/
theorem assertValid_reconcile (valid : Lease.assertValid s (.reconcile expected) = .ok ()) :
    s.maxLeaderToken ≤ normalizeNumeric expected.leaderToken ∧
      unfinishedIn s = none ∧ s.lastActivated = some expected := by
  simp only [Lease.assertValid] at valid
  split at valid
  · cases valid
  · rename_i newest
    split at valid
    · cases valid
    · rename_i held
      exact ⟨Nat.le_of_not_lt newest, settled_iff.mp (not_not.mp held)⟩

/-! ## Intents -/

def AgentOp.intent : AgentOp → Option PublishRecord
  | recordPublishIntent record => some record
  | _ => none

theorem mutate_intent {o : AgentOp} {next : AgentState} {reply : o.Reply}
    (mutated : o.mutate s = .ok (reply, next)) :
    next.lastPublishIntent = o.intent.or s.lastPublishIntent := by
  cases o with
  | reserveAll op opening =>
      obtain ⟨tuples, swept, taken, -, -, -, -, sweeping, walked, rfl⟩ :=
        Agent.reserveAll_ok mutated
      obtain ⟨token, reservations, completed, -, rfl⟩ := Agent.reserves_only walked
      have opened : ∀ held : AgentState,
          (Agent.openJournal op opening held).lastPublishIntent = held.lastPublishIntent := by
        intro held
        unfold Agent.openJournal
        split
        · rfl
        · split <;> rfl
      rcases Agent.sweepOrphan_ok sweeping with ⟨-, rfl⟩ |
        ⟨stale, stamped, staleTuples, -, -, -, -, stamping, -, rfl⟩
      · exact opened _
      · obtain ⟨terminal, rfl⟩ := stamping.only
        exact opened _
  | reserve op =>
      obtain ⟨token, reservations, completed, -, rfl⟩ := Agent.reserve_only mutated
      rfl
  | stage op =>
      obtain ⟨token, reservations, completed, -, rfl⟩ := Agent.stage_only mutated
      rfl
  | commit op evidence =>
      obtain ⟨-, -, ⟨-, rfl⟩ | ⟨-, -, -, rfl⟩ | ⟨-, -, -, -, rfl⟩⟩ := Agent.commit_ok mutated
      · rfl
      · rfl
      · rfl
  | abort op =>
      obtain ⟨token, reservations, terminal, terminalAt, -, rfl⟩ :=
        Agent.finalize_only (Agent.abort_ok mutated)
      rfl
  | release op =>
      obtain ⟨-, ⟨-, rfl⟩ | ⟨-, rfl⟩⟩ := Agent.release_ok mutated
      · rfl
      · rfl
  | fail op =>
      obtain ⟨token, reservations, terminal, terminalAt, -, rfl⟩ :=
        Agent.finalize_only (Agent.fail_ok mutated)
      rfl
  | applyHealth op =>
      obtain ⟨-, -, ⟨-, rfl⟩ | ⟨-, -, -, rfl⟩⟩ := Agent.applyHealth_ok mutated
      · rfl
      · rfl
  | recordPublishIntent record =>
      obtain ⟨-, rfl⟩ := Agent.recordPublishIntent_ok mutated
      rfl
  | _ =>
      obtain same | ⟨record, named⟩ := (mutate_clerical mutated rfl).intent
      · exact same
      · cases named

def NeverIntended (s : AgentState) : Prop :=
  ∀ history, AgentRun history s → ∀ event ∈ history, ∀ record,
    event.label ≠ .recordPublishIntent record

theorem neverIntended (none : s.lastPublishIntent = none) :
    NeverIntended s := by
  intro history run event member record named
  have intended {before after : AgentState} {o : AgentOp} (step : AgentStep before o after) :
      after.lastPublishIntent = o.intent.or before.lastPublishIntent := by
    obtain ⟨reply, succeeded⟩ := step
    obtain ⟨changed, mutated, rfl, -⟩ := serial_ok succeeded
    change changed.lastPublishIntent = _
    exact mutate_intent mutated
  have lasts := run.lasting (fun _ => True) (fun s => s.lastPublishIntent ≠ .none) trivial
    (fun _ _ _ _ _ => trivial) fun before o after step _ recorded => by
      rw [intended step]
      simp [recorded]
  have step := (run.at_events trivial (fun _ _ _ _ _ => trivial) event member).1
  rw [named] at step
  refine lasts.2.1 event member ?_ none
  rw [intended step]
  simp [AgentOp.intent]

section Amid

variable {others : AgentState → AgentState → Prop} {state final : AgentState}
  {moments : List (Moment dataplane)} {α : Type}

variable {request : EffectCall}

theorem amid_effect {rest : request.Answer → Program α}
    {result : Except Thrown α} :
    Amid others (effect request >>= rest) state moments result final ↔
      ∃ current, others state current ∧
        ((∃ answer later, moments = .asked request current (.ok answer) :: later ∧
            Amid others (rest answer) current later result final) ∨
          ∃ fault, moments = [.asked request current (.error fault)] ∧
            result = .error fault ∧ final = current) :=
  amid_ask

/-- The program gives only leases of reconciliation away, what it tells is
honest, and it tells that there is no baseline only over a bare state. -/
def Upright (others : AgentState → AgentState → Prop) (bare : AgentState → Prop)
    (told : α → Option ReconcileResult) (program : Program α) : Prop :=
  ∀ state moments result final, Amid others program state moments result final →
    Leased moments ∧ ∀ value answer, result = .ok value → told value = some answer →
      Honest moments answer final ∧ (answer = .noBaseline → bare final)

variable {bare : AgentState → Prop} {told : α → Option ReconcileResult}

theorem upright_pure {value : α}
    (ungranted : ∀ answer, told value = some answer →
      answer.granted = none ∧ answer ≠ .noBaseline) :
    Upright others bare told (pure value) := by
  intro state moments result final amid
  obtain ⟨rfl, rfl, rfl⟩ := amid_pure.mp amid
  refine ⟨Leased.nil, fun _ answer same tells => ?_⟩
  cases same
  obtain ⟨none, other⟩ := ungranted answer tells
  exact ⟨honest_of_ungranted none, fun same => (other same).elim⟩

theorem upright_effect {rest : request.Answer → Program α}
    (leases : ∀ lease, request.lease = some lease → ∃ expected, lease = .reconcile expected)
    (upright : ∀ answer, Upright others bare told (rest answer)) :
    Upright others bare told (effect request >>= rest) := by
  intro state moments result final amid
  obtain ⟨current, _, ⟨answer, later, rfl, remaining⟩ | ⟨fault, rfl, rfl, rfl⟩⟩ :=
    amid_effect.mp amid
  · obtain ⟨leased, honest⟩ := upright answer _ _ _ _ remaining
    refine ⟨leased.asked leases, fun value told same tells => ?_⟩
    obtain ⟨granted, grounded⟩ := honest value told same tells
    exact ⟨@Honest.after [_] _ _ _ granted, grounded⟩
  · exact ⟨Leased.nil.asked leases, fun _ _ same => nomatch same⟩

theorem upright_look {rest : AgentState → Program α}
    (upright : ∀ read, Upright others bare told (rest read) ∨
      ∃ value, rest read = pure value ∧ told value = some .noBaseline ∧ bare read) :
    Upright others bare told (snapshot >>= rest) := by
  intro state moments result final amid
  obtain ⟨read, later, _, rfl, remaining⟩ := amid_look.mp amid
  rcases upright read with upright | ⟨value, same, tells, none⟩
  · obtain ⟨leased, honest⟩ := upright _ _ _ _ remaining
    refine ⟨leased.looked read, fun value told same tells => ?_⟩
    obtain ⟨granted, grounded⟩ := honest value told same tells
    exact ⟨@Honest.after [_] _ _ _ granted, grounded⟩
  · rw [same] at remaining
    obtain ⟨rfl, rfl, rfl⟩ := amid_pure.mp remaining
    refine ⟨Leased.nil.looked _, fun other answer ended told => ?_⟩
    cases ended
    cases tells.symm.trans told
    exact ⟨honest_of_ungranted rfl, fun _ => none⟩

theorem upright_observe
    {rest : PublishedState → Option ActivationEvidence → AgentState → Program α}
    (upright : ∀ found evidence read, Upright others bare told (rest found evidence read) ∨
      ∃ value answer record, rest found evidence read = pure value ∧
        told value = some answer ∧ answer.granted = some record ∧
        found = .owned record ∧ provesActivation evidence record.generation = true ∧
        settled read record = .settled) :
    Upright others bare told (do
      let found ← effect .observePublished
      let evidence ← effect .observeActivation
      let read ← snapshot
      rest found evidence read) := by
  have unleased {request : EffectCall} (none : request.lease = none) :
      ∀ lease, request.lease = some lease → ∃ expected, lease = .reconcile expected := by
    intro lease given
    rw [none] at given
    cases given
  intro state moments result final amid
  obtain ⟨atPublished, _, ⟨found, first, rfl, observing⟩ | ⟨fault, rfl, rfl, rfl⟩⟩ :=
    amid_effect.mp amid
  swap
  · exact ⟨Leased.nil.asked (unleased rfl), fun _ _ same => nomatch same⟩
  obtain ⟨atActivation, _, ⟨evidence, second, rfl, reading⟩ | ⟨fault, rfl, rfl, rfl⟩⟩ :=
    amid_effect.mp observing
  swap
  · exact ⟨(Leased.nil.asked (unleased rfl)).asked (unleased rfl),
      fun _ _ same => nomatch same⟩
  obtain ⟨read, later, _, rfl, remaining⟩ := amid_look.mp reading
  have leased (rest : Leased later) :
      Leased (.asked .observePublished atPublished (.ok found) ::
        .asked .observeActivation atActivation (.ok evidence) :: .looked read :: later) :=
    ((rest.looked read).asked (unleased rfl)).asked (unleased rfl)
  rcases upright found evidence read with upright |
    ⟨value, answer, record, same, tells, granted, rfl, proves, held⟩
  · obtain ⟨kept, honest⟩ := upright _ _ _ _ remaining
    refine ⟨leased kept, fun value told same tells => ?_⟩
    obtain ⟨granted, grounded⟩ := honest value told same tells
    exact ⟨@Honest.after [_, _, _] _ _ _ granted, grounded⟩
  · rw [same] at remaining
    obtain ⟨rfl, rfl, rfl⟩ := amid_pure.mp remaining
    refine ⟨leased Leased.nil, fun other said ended told => ?_⟩
    cases ended
    cases tells.symm.trans told
    obtain ⟨closed, baseline⟩ := settled_iff.mp held
    refine ⟨fun other names => ?_, fun same => by rw [same] at granted; cases granted⟩
    cases granted.symm.trans names
    exact ⟨baseline, closed, [], atPublished, atActivation, evidence, rfl, proves⟩

/-! ## The parts of reconciliation -/

theorem reconcile_leases (mine : request.lease = some (.reconcile expected)) :
    ∀ lease, request.lease = some lease → ∃ expected, lease = .reconcile expected :=
  fun _ given => ⟨expected, (Option.some.inj (mine.symm.trans given)).symm⟩

theorem upright_told (none : answer.granted = none) (other : answer ≠ .noBaseline) :
    Upright others bare id (pure (some answer) : Program (Option ReconcileResult)) := by
  refine upright_pure fun _ same => ?_
  cases same
  exact ⟨none, other⟩

theorem upright_again : Upright others bare id (pure none : Program (Option ReconcileResult)) :=
  upright_pure fun _ same => nomatch same

theorem repair_upright (expected : PublishRecord) (seen : PublishedState) (pointerOk : Bool) :
    Upright others bare id (Driver.repair expected seen pointerOk) := by
  unfold Driver.repair
  cases pointerOk
  case' false => refine upright_effect (reconcile_leases rfl) fun _ => ?_
  all_goals
    refine upright_effect (reconcile_leases rfl) fun _ => ?_
    refine upright_look fun midway => .inl ?_
    split
    · exact upright_told rfl (by simp)
    · exact upright_again
    · refine upright_observe fun found evidence read => ?_
      split
      · exact .inl (upright_told rfl (by simp))
      · rename_i held
        split
        · rename_i restored
          simp only [Driver.pointsAt, Bool.and_eq_true, decide_eq_true_eq] at restored
          exact .inr ⟨_, _, expected, rfl, rfl, rfl, restored.1, restored.2, held⟩
        · exact .inl (upright_told rfl (by simp))
      · exact .inl (upright_told rfl (by simp))

theorem reconcileRound_upright :
    Upright others (fun s => s.lastPublishIntent = none) id Driver.reconcileRound := by
  refine upright_look fun read => ?_
  split
  · exact .inl (upright_effect (fun _ given => nomatch given) fun _ =>
      upright_told rfl (by simp))
  · split
    · split
      · rename_i intended
        exact .inr ⟨_, rfl, rfl, intended⟩
      · exact .inl (upright_effect (fun _ given => nomatch given) fun _ =>
          upright_told rfl (by simp))
    · rename_i expected _
      refine .inl (upright_observe fun found evidence now => ?_)
      split
      · rename_i observed
        simp only [Driver.pointsAt, Bool.and_eq_true, decide_eq_true_eq] at observed
        split
        · rename_i held
          exact .inr ⟨_, _, expected, rfl, rfl, rfl, observed.1, observed.2, held⟩
        · exact .inl (upright_told rfl (by simp))
        · exact .inl upright_again
      · refine .inl ?_
        split
        · exact upright_told rfl (by simp)
        · split
          · exact upright_told rfl (by simp)
          · exact upright_again
          · exact repair_upright expected found _

variable {result : Except Thrown ReconcileResult}

theorem reconcileTail_cases {state final : AgentState} {moments : List (Moment dataplane)}
    (amid : Amid others Driver.reconcileTail state moments result final) :
    Leased moments ∧ ∀ answer, result = .ok answer →
      Honest moments answer final ∧
        (answer = .noBaseline → moments = [.looked final] ∧ final.lastActivated = none) := by
  obtain ⟨read, later, _, rfl, remaining⟩ := amid_look.mp amid
  cases baseline : read.lastActivated with
  | none =>
      rw [baseline] at remaining
      obtain ⟨rfl, rfl, rfl⟩ := amid_pure.mp remaining
      refine ⟨Leased.nil.looked _, fun answer same => ?_⟩
      cases same
      exact ⟨honest_of_ungranted rfl, fun _ => ⟨rfl, baseline⟩⟩
  | some record =>
      rw [baseline] at remaining
      have upright {answer : ReconcileResult} (none : answer.granted = none)
          (other : answer ≠ .noBaseline) :
          Upright others (fun _ => False) some (pure answer : Program ReconcileResult) := by
        refine upright_pure fun _ same => ?_
        cases same
        exact ⟨none, other⟩
      obtain ⟨leased, honest⟩ := @upright_observe others _ (fun _ => False) some _
        (fun found evidence now => by
          split
          · exact .inl (upright rfl (by simp))
          · rename_i held
            split
            · rename_i observed
              simp only [Driver.pointsAt, Bool.and_eq_true, decide_eq_true_eq] at observed
              exact .inr ⟨_, _, record, rfl, rfl, rfl, observed.1, observed.2, held⟩
            · exact .inl (upright rfl (by simp))
          · exact .inl (upright rfl (by simp)))
        _ _ _ _ remaining
      refine ⟨leased.looked read, fun answer same => ?_⟩
      obtain ⟨granted, grounded⟩ := honest answer answer same rfl
      exact ⟨@Honest.after [_] _ _ _ granted, fun bare => (grounded bare).elim⟩

/-- The rounds of reconciliation without what comes after them. -/
def reconcileRounds : Nat → Program (Option ReconcileResult)
  | 0 => return none
  | rounds + 1 => do
      let outcome ← Driver.reconcileRound
      match outcome with
      | some result => return some result
      | none => reconcileRounds rounds

theorem reconcileRounds_upright (rounds : Nat) :
    Upright others (fun s => s.lastPublishIntent = none) id (reconcileRounds rounds) := by
  induction rounds with
  | zero => exact upright_again
  | succ rounds induction =>
      intro state moments result final amid
      rcases amid_bind.mp amid with ⟨outcome, earlier, middle, later, rfl, first, second⟩ |
        ⟨fault, rfl, first⟩
      · obtain ⟨leased, honest⟩ := reconcileRound_upright _ _ _ _ first
        cases outcome with
        | some told =>
            obtain ⟨rfl, rfl, rfl⟩ := amid_pure.mp second
            rw [List.append_nil]
            refine ⟨leased, fun value answer same tells => ?_⟩
            cases same
            exact honest _ answer rfl tells
        | none =>
            obtain ⟨leasedLater, honestLater⟩ := induction _ _ _ _ second
            refine ⟨leased.append leasedLater, fun value answer same tells => ?_⟩
            obtain ⟨granted, grounded⟩ := honestLater value answer same tells
            exact ⟨granted.after, grounded⟩
      · exact ⟨(reconcileRound_upright _ _ _ _ first).1, fun _ _ same => nomatch same⟩

theorem amid_reconcileFrom {rounds : Nat} {state final : AgentState}
    {moments : List (Moment dataplane)}
    (amid : Amid others (Driver.reconcileFrom rounds) state moments result final) :
    Amid others (reconcileRounds rounds) state moments (result.map some) final ∨
      ∃ earlier later middle, moments = earlier ++ later ∧
        Amid others (reconcileRounds rounds) state earlier (.ok none) middle ∧
        Amid others Driver.reconcileTail middle later result final := by
  induction rounds generalizing state moments with
  | zero => exact .inr ⟨[], moments, state, rfl, amid_pure.mpr ⟨rfl, rfl, rfl⟩, amid⟩
  | succ rounds induction =>
      rcases amid_bind.mp amid with ⟨outcome, earlier, middle, later, rfl, first, second⟩ |
        ⟨fault, rfl, first⟩
      · cases outcome with
        | some told =>
            obtain ⟨rfl, rfl, rfl⟩ := amid_pure.mp second
            exact .inl (amid_bind.mpr (.inl ⟨_, earlier, _, [], rfl, first,
              amid_pure.mpr ⟨rfl, rfl, rfl⟩⟩))
        | none =>
            rcases induction second with ended | ⟨between, last, reached, rfl, rounds, tail⟩
            · exact .inl (amid_bind.mpr (.inl ⟨_, earlier, middle, later, rfl, first, ended⟩))
            · exact .inr ⟨earlier ++ between, last, reached, (List.append_assoc ..).symm,
                amid_bind.mpr (.inl ⟨_, earlier, middle, between, rfl, first, rounds⟩), tail⟩
      · exact .inl (amid_bind.mpr (.inr ⟨fault, rfl, first⟩))

/-- When the baseline moved in every round, the reading after them finds a
baseline, or no publish was ever intended. -/
def TailGrounded (others : AgentState → AgentState → Prop) (state : AgentState)
    (moments : List (Moment dataplane)) : Prop :=
  ∀ earlier later middle read, moments = earlier ++ .looked read :: later →
    Amid others (reconcileRounds 3) state earlier (.ok none) middle →
      read.lastActivated = none → read.lastPublishIntent = none

/-- Whatever others do meanwhile, what reconciliation grants is true, what lands
under its leases finds the baseline settled; and it tells that there is no
baseline only when no publish was ever intended, as long as the reading after
the rounds is grounded. -/
theorem reconcile_tells_truth {state final : AgentState} {moments : List (Moment dataplane)}
    {result : Except Thrown ReconcileResult}
    (amid : Amid others Driver.reconcileConfig state moments result final)
    (grounded : TailGrounded others state moments) :
    (∀ answer, result = .ok answer →
        Honest moments answer final ∧ (answer = .noBaseline → NeverIntended final)) ∧
      ∀ request asked reply, Moment.asked request asked reply ∈ moments →
        ∀ lease, request.lease = some lease → ∃ expected, lease = .reconcile expected ∧
          ∀ landing, Lease.assertValid landing lease = .ok () →
            landing.maxLeaderToken ≤ normalizeNumeric expected.leaderToken ∧
              unfinishedIn landing = none := by
  have facts : Leased moments ∧ ∀ answer, result = .ok answer →
      Honest moments answer final ∧
        (answer = .noBaseline → final.lastPublishIntent = none) := by
    rcases amid_reconcileFrom amid with ended | ⟨earlier, later, middle, rfl, rounds, tail⟩
    · obtain ⟨leased, honest⟩ := reconcileRounds_upright 3 _ _ _ _ ended
      refine ⟨leased, fun answer same => honest _ answer ?_ rfl⟩
      rw [same]
      rfl
    · obtain ⟨leased, honest⟩ := reconcileTail_cases tail
      refine ⟨(reconcileRounds_upright 3 _ _ _ _ rounds).1.append leased, fun answer same => ?_⟩
      obtain ⟨granted, bare⟩ := honest answer same
      refine ⟨granted.after, fun none => ?_⟩
      obtain ⟨rfl, cleared⟩ := bare none
      exact grounded earlier [] middle final rfl rounds cleared
  obtain ⟨leased, honest⟩ := facts
  refine ⟨fun answer same => (honest answer same).imp_right (neverIntended ∘ ·),
    fun request asked reply member lease given => ?_⟩
  obtain ⟨expected, rfl⟩ := leased request asked reply member lease given
  refine ⟨expected, rfl, fun landing valid => ?_⟩
  obtain ⟨newest, ended, _⟩ := assertValid_reconcile valid
  exact ⟨newest, ended⟩

theorem amid_round_moved {state read now : AgentState} (before : others state read)
    (still : others read read) (meanwhile : others read now) (ended : unfinishedIn read = none)
    (baseline : read.lastActivated = some expected)
    (newest : now.maxLeaderToken ≤ normalizeNumeric expected.leaderToken)
    (moved : settled now expected = .moved) :
    Amid others Driver.reconcileRound state
      [.looked read, .asked .observePublished read (.ok PublishedState.none),
        .asked .observeActivation read (.ok Option.none), .looked now] (.ok none) now := by
  refine amid_look.mpr ⟨read, _, before, rfl, ?_⟩
  rw [ended, baseline]
  refine amid_effect.mpr ⟨read, still, .inl ⟨PublishedState.none, _, rfl, ?_⟩⟩
  refine amid_effect.mpr ⟨read, still, .inl ⟨Option.none, _, rfl, ?_⟩⟩
  refine amid_look.mpr ⟨now, _, meanwhile, rfl, ?_⟩
  rw [moved]
  simp only [Driver.pointsAt, reduceCtorEq, decide_false, Bool.false_and, Bool.false_eq_true,
    if_false, Nat.not_lt.mpr newest]
  exact amid_pure.mpr ⟨rfl, rfl, rfl⟩

theorem amid_again {rounds : Nat} {state now final : AgentState}
    (round : Amid others Driver.reconcileRound state earlier (.ok none) now)
    (remaining : Amid others (Driver.reconcileFrom rounds) now later result final) :
    Amid others (Driver.reconcileFrom (rounds + 1)) state (earlier ++ later) result final :=
  amid_bind.mpr (.inl ⟨none, earlier, now, later, rfl, round, remaining⟩)

end Amid

/-! ## A baseline that is gone -/

def transition (operationId transitionId : String) : Identity :=
  { operationId := operationId, transitionId := transitionId, leaderToken := 1 }

/-- A number of steps of a plain operation in a world that serves it. -/
def steps (thread count : Nat) (op : ApplyOperation) (target : Nat) :
    ServicePool.Turn dataplane Nat :=
  { thread := thread
    steps := count
    answers := plainAnswers (.owned (recordOf op)) (some (plainEvidence target)) }

/-- An operation that runs alone to its end.  It finds nothing published first,
so it records its intent. -/
def applied (op : ApplyOperation) (target : Nat) (s : AgentState) : AgentState :=
  driven plainDeployment (fun _ => .applyConfig op)
    [{ thread := 0, steps := 9, answers := plainAnswers .none (some (plainEvidence target)) },
      steps 0 30 op target] s

def torn : ApplyOperation := plainOperation (transition "x|y" "z") 3 4

def tearing : ApplyOperation := plainOperation (transition "x" "y|z") 3 4

/-- Two operations whose tuples have one canonical text.  The first is aborted
without naming its planes when it is about to commit, and commits a plane of the
second all the same. -/
def tornApart (s : AgentState) : AgentState :=
  driven plainDeployment
    (fun thread =>
      match thread with
      | 0 => .applyConfig torn
      | 1 => .abortConfig { torn with affectedPlanes := [] }
      | _ => .applyConfig tearing)
    [steps 0 20 torn 4, steps 1 10 torn 4, steps 2 20 tearing 4, steps 0 1 torn 4,
      steps 2 60 tearing 4] s

def firstBaseline : AgentState := applied (plainOperation (transition "a" "t") 0 1) 1 initial

def secondBaseline : AgentState :=
  applied (plainOperation (transition "b" "t") 1 2) 2 firstBaseline

def thirdBaseline : AgentState :=
  applied (plainOperation (transition "c" "t") 2 3) 3 secondBaseline

/-- Whether a round that reads the one state and then the other asks for another
round. -/
def movesOn (read now : AgentState) : Bool :=
  (unfinishedIn read).isNone &&
    read.lastActivated.any fun expected =>
      decide (now.maxLeaderToken ≤ normalizeNumeric expected.leaderToken) &&
        decide (settled now expected = .moved)

theorem amid_round_of_movesOn {state read now : AgentState}
    (before : Meanwhile plainDeployment state read)
    (meanwhile : Meanwhile plainDeployment read now) (passed : movesOn read now = true) :
    ∃ moments, Amid (Meanwhile plainDeployment) Driver.reconcileRound state moments
      (.ok none) now := by
  simp only [movesOn, Bool.and_eq_true, Option.isNone_iff_eq_none, Option.any_eq_true,
    decide_eq_true_eq] at passed
  obtain ⟨ended, expected, baseline, newest, moved⟩ := passed
  exact ⟨_, amid_round_moved before (.refl _ read) meanwhile ended baseline newest moved⟩

/-- The baseline moves in every round and is gone after them: the answer is that
there is none, though an intent is on record. -/
theorem no_baseline_after_intent :
    ∃ moments final, Amid (Meanwhile plainDeployment) Driver.reconcileConfig initial moments
      (.ok .noBaseline) final ∧ final.lastPublishIntent ≠ none := by
  have passed : (movesOn firstBaseline secondBaseline && movesOn secondBaseline thirdBaseline &&
      movesOn thirdBaseline (tornApart thirdBaseline) &&
      (tornApart thirdBaseline).lastActivated.isNone &&
      (tornApart thirdBaseline).lastPublishIntent.isSome) = true := by
    decide +kernel
  simp only [Bool.and_eq_true, Option.isNone_iff_eq_none] at passed
  obtain ⟨⟨⟨⟨first, second⟩, third⟩, gone⟩, intended⟩ := passed
  obtain ⟨firstMoments, firstRound⟩ := amid_round_of_movesOn
    (meanwhile_driven _ _ _ initial) (meanwhile_driven _ _ _ firstBaseline) first
  obtain ⟨secondMoments, secondRound⟩ := amid_round_of_movesOn
    (.refl _ secondBaseline) (meanwhile_driven _ _ _ secondBaseline) second
  obtain ⟨thirdMoments, thirdRound⟩ := amid_round_of_movesOn
    (.refl _ thirdBaseline) (meanwhile_driven _ _ _ thirdBaseline) third
  have tail : Amid (Meanwhile plainDeployment) Driver.reconcileTail (tornApart thirdBaseline)
      [.looked (tornApart thirdBaseline)] (.ok .noBaseline) (tornApart thirdBaseline) := by
    refine amid_look.mpr ⟨_, _, .refl _ _, rfl, ?_⟩
    rw [gone]
    exact amid_pure.mpr ⟨rfl, rfl, rfl⟩
  refine ⟨_, _, amid_again firstRound (amid_again secondRound (amid_again thirdRound tail)), ?_⟩
  exact Option.isSome_iff_ne_none.mp intended

theorem reconcile_tells_truth_of_converged :
    ∃ moments record, Amid (Meanwhile plainDeployment) Driver.reconcileConfig initial moments
      (.ok (.converged record)) firstBaseline ∧
        Honest moments (.converged record) firstBaseline := by
  have passed : ((unfinishedIn firstBaseline).isNone &&
      firstBaseline.lastActivated.any fun record =>
        provesActivation (some (plainEvidence 1)) record.generation) = true := by
    decide +kernel
  simp only [Bool.and_eq_true, Option.isNone_iff_eq_none, Option.any_eq_true] at passed
  obtain ⟨ended, record, baseline, proves⟩ := passed
  have held : settled firstBaseline record = .settled := settled_iff.mpr ⟨ended, baseline⟩
  have round : Amid (Meanwhile plainDeployment) Driver.reconcileRound initial
      [.looked firstBaseline, .asked .observePublished firstBaseline (.ok (.owned record)),
        .asked .observeActivation firstBaseline (.ok (some (plainEvidence 1))),
        .looked firstBaseline] (.ok (some (.converged record))) firstBaseline := by
    refine amid_look.mpr ⟨firstBaseline, _, meanwhile_driven _ _ _ initial, rfl, ?_⟩
    rw [ended, baseline]
    refine amid_effect.mpr ⟨firstBaseline, .refl _ _, .inl ⟨.owned record, _, rfl, ?_⟩⟩
    refine amid_effect.mpr ⟨firstBaseline, .refl _ _, .inl ⟨some (plainEvidence 1), _, rfl, ?_⟩⟩
    refine amid_look.mpr ⟨firstBaseline, _, .refl _ _, rfl, ?_⟩
    rw [held]
    simp only [Driver.pointsAt, decide_true, proves, Bool.and_self, if_true]
    exact amid_pure.mpr ⟨rfl, rfl, rfl⟩
  have run : Amid (Meanwhile plainDeployment) Driver.reconcileConfig initial _
      (.ok (.converged record)) firstBaseline :=
    amid_bind.mpr (.inl ⟨_, _, _, [], rfl, round, amid_pure.mpr ⟨rfl, rfl, rfl⟩⟩)
  have grounded : TailGrounded (Meanwhile plainDeployment) initial
      ([.looked firstBaseline, .asked .observePublished firstBaseline (.ok (.owned record)),
        .asked .observeActivation firstBaseline (.ok (some (plainEvidence 1))),
        .looked firstBaseline] ++ []) := by
    intro earlier later middle read same _ none
    have member : Moment.looked read ∈ earlier ++ .looked read :: later := by simp
    rw [← same] at member
    obtain rfl : read = firstBaseline := by simpa using member
    rw [baseline] at none
    cases none
  exact ⟨_, record, run, ((reconcile_tells_truth run grounded).1 _ rfl).1⟩

end Barycenter.Dp
