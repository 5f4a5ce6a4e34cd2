import Barycenter.Dp.Agent

/-!
# What a successful operation did

One lemma for each operation of the agent: from a success it gives the guards
that were passed and the next state as an expression.  Later modules read these
and never unfold an operation again.
-/

namespace Barycenter.Dp

open Outcome

def GivenUp (s : AgentState) (who : Identity) (plane : Plane) : Prop :=
  terminalOf s who plane = some .aborted ∨ terminalOf s who plane = some .failed

def Replays (s : AgentState) (op : OperationTuple) (step : Step) (ack : PlaneAck) : Prop :=
  ∃ seen, s.completed.get? (key op step) = some seen ∧
    seen.tuple = canonical op ∧ ack = { seen.ack with cached := true }

def Fresh (s : AgentState) (op : OperationTuple) (step : Step) : Prop :=
  s.completed.get? (key op step) = none ∧ terminalOf s op.identity op.plane = none

@[simp] theorem terminalOf_raise (s : AgentState) (token : Nat) (who : Identity)
    (plane : Plane) : terminalOf (s.raise token) who plane = terminalOf s who plane := rfl

@[simp] theorem raise_completed (s : AgentState) (token : Nat) :
    (s.raise token).completed = s.completed := rfl

@[simp] theorem raise_planes (s : AgentState) (token : Nat) :
    (s.raise token).planes = s.planes := rfl

@[simp] theorem raise_slot (s : AgentState) (token : Nat) (plane : Plane) (epoch : Nat) :
    (s.raise token).slot plane epoch = s.slot plane epoch := rfl

@[simp] theorem raise_maxLeaderToken (s : AgentState) (token : Nat) :
    (s.raise token).maxLeaderToken = max s.maxLeaderToken token := by
  simp [AgentState.raise]

variable {s : AgentState}

theorem assertLeader_ok {token : Nat} {result : Unit} :
    assertLeader s token = .ok result ↔ s.maxLeaderToken ≤ token := by
  simp only [assertLeader, guard_ok]
  constructor
  · intro newest
    omega
  · intro newest
    exact ⟨by omega, trivial⟩

theorem admitOp_ok {next : AgentState} {op : OperationTuple} {step : Step}
    {replay : Option PlaneAck} (admitted : admitOp s op step = .ok (replay, next)) :
    s.maxLeaderToken ≤ op.leaderToken ∧
      ¬ GivenUp s op.identity op.plane ∧
      next = s.raise op.leaderToken ∧
      ((∃ ack, replay = some ack ∧ Replays s op step ack) ∨
        (replay = none ∧ Fresh s op step)) := by
  simp only [admitOp, bind_ok, terminalOf_raise, raise_completed] at admitted
  obtain ⟨_, newest, judged⟩ := admitted
  have newest := assertLeader_ok.mp newest
  split at judged
  · cases judged
  · cases judged
  · rename_i notAborted notFailed
    have alive : ¬ GivenUp s op.identity op.plane := by
      rintro (aborted | failed)
      · exact notAborted aborted
      · exact notFailed failed
    split at judged
    · rename_i seen cached
      obtain ⟨sameTuple, answered⟩ := guard_ok.mp judged
      cases answered
      exact ⟨newest, alive, rfl,
        .inl ⟨_, rfl, seen, cached, not_not.mp sameTuple, rfl⟩⟩
    · rename_i unanswered
      split at judged
      · cases judged
      · rename_i open_
        cases judged
        exact ⟨newest, alive, rfl, .inr ⟨rfl, unanswered, open_⟩⟩

/-- A slot that is empty and whose coordinate exchange passes. -/
structure Claimable (s : AgentState) (op : OperationTuple) : Prop where
  empty : s.slot op.plane op.target.activationEpoch = none
  expected : (s.planes.get op.plane).coordinate = op.expectedCurrent
  forward : (s.planes.get op.plane).activationEpoch < op.target.activationEpoch

theorem acquire_ok {next : AgentState} {op : OperationTuple} {slot : Reservation}
    (acquired : acquire s op = .ok (slot, next)) :
    (s.slot op.plane op.target.activationEpoch = some slot ∧
        canonical slot.op = canonical op ∧ next = s) ∨
      (Claimable s op ∧ slot = { op := op } ∧
        next = s.setSlot op.plane op.target.activationEpoch slot) := by
  simp only [acquire] at acquired
  split at acquired
  · rename_i existing taken
    obtain ⟨owned, answered⟩ := guard_ok.mp acquired
    cases answered
    exact .inl ⟨taken, not_not.mp owned, rfl⟩
  · rename_i empty
    obtain ⟨expected, rest⟩ := guard_ok.mp acquired
    obtain ⟨forward, answered⟩ := guard_ok.mp rest
    cases answered
    exact .inr ⟨⟨empty, sameCoordinate_iff.mp (by simpa using expected), by omega⟩, rfl, rfl⟩

namespace Agent

variable {s next : AgentState} {op : OperationTuple} {ack : PlaneAck}

theorem reserve_ok (reserved : reserve op s = .ok (ack, next)) :
    s.maxLeaderToken ≤ op.leaderToken ∧
      ¬ GivenUp s op.identity op.plane ∧
      ((Replays s op .reserve ack ∧ next = s.raise op.leaderToken) ∨
        (Fresh s op .reserve ∧ ack = ackOf op op.reached ∧
          ∃ slot taken, acquire (s.raise op.leaderToken) op = .ok (slot, taken) ∧
            next = record taken op .reserve op.reached)) := by
  simp only [reserve, bind_ok, Prod.exists] at reserved
  obtain ⟨replay, admitted, admission, answered⟩ := reserved
  obtain ⟨newest, alive, rfl, judged⟩ := admitOp_ok admission
  refine ⟨newest, alive, ?_⟩
  rcases judged with ⟨cached, rfl, replays⟩ | ⟨rfl, fresh⟩
  · cases answered
    exact .inl ⟨replays, rfl⟩
  · simp only [bind_ok, Prod.exists, pure, Except.pure, Except.ok.injEq,
      Prod.mk.injEq] at answered
    obtain ⟨slot, taken, acquired, rfl, rfl⟩ := answered
    exact .inr ⟨fresh, rfl, slot, taken, acquired, rfl⟩

theorem stage_ok (stagedOk : stage op s = .ok (ack, next)) :
    s.maxLeaderToken ≤ op.leaderToken ∧
      ¬ GivenUp s op.identity op.plane ∧
      ((Replays s op .stage ack ∧ next = s.raise op.leaderToken) ∨
        (Fresh s op .stage ∧ ack = ackOf op op.reached ∧
          ∃ slot taken, acquire (s.raise op.leaderToken) op = .ok (slot, taken) ∧
            next = record
              (taken.setSlot op.plane op.target.activationEpoch
                { slot with stagedDigest := some op.payloadDigest })
              op .stage op.reached)) := by
  simp only [stage, bind_ok, Prod.exists] at stagedOk
  obtain ⟨replay, admitted, admission, answered⟩ := stagedOk
  obtain ⟨newest, alive, rfl, judged⟩ := admitOp_ok admission
  refine ⟨newest, alive, ?_⟩
  rcases judged with ⟨cached, rfl, replays⟩ | ⟨rfl, fresh⟩
  · cases answered
    exact .inl ⟨replays, rfl⟩
  · simp only [bind_ok, Prod.exists, pure, Except.pure, Except.ok.injEq,
      Prod.mk.injEq] at answered
    obtain ⟨slot, taken, acquired, rfl, rfl⟩ := answered
    exact .inr ⟨fresh, rfl, slot, taken, acquired, rfl⟩

/-- What a commit that moves the coordinate has found. -/
structure Moves (s : AgentState) (op : OperationTuple) (evidence : ActivationEvidence)
    (slot : Reservation) : Prop where
  found : s.slot op.plane op.target.activationEpoch = some slot
  owned : canonical slot.op = canonical op
  expected : (s.planes.get op.plane).coordinate = op.expectedCurrent
  staged : slot.stagedDigest = some op.payloadDigest
  proved : provesActivation (some evidence) op.targetGeneration = true

def moved (s : AgentState) (op : OperationTuple) (evidence : ActivationEvidence) :
    AgentState :=
  record (finish (place (s.raise op.leaderToken) op evidence) op .activated) op .commit
    op.placed

theorem committableSlot_ok {slot : Reservation}
    (committable : committableSlot s op = .ok slot) :
    s.slot op.plane op.target.activationEpoch = some slot ∧
      canonical slot.op = canonical op ∧
      (s.planes.get op.plane).coordinate = op.expectedCurrent ∧
      slot.stagedDigest = some op.payloadDigest := by
  simp only [committableSlot] at committable
  split at committable
  · cases committable
  · rename_i found taken
    obtain ⟨owned, committable⟩ := guard_ok.mp committable
    obtain ⟨expected, committable⟩ := guard_ok.mp committable
    split at committable
    · cases committable
    · rename_i staged stagedDigest
      obtain ⟨sameDigest, committable⟩ := guard_ok.mp committable
      cases committable
      exact ⟨taken, not_not.mp owned, sameCoordinate_iff.mp (by simpa using expected),
        by rw [stagedDigest, not_not.mp sameDigest]⟩

theorem commit_ok
    {evidence : ActivationEvidence} (committed : commit op evidence s = .ok (ack, next)) :
    s.maxLeaderToken ≤ op.leaderToken ∧
      ¬ GivenUp s op.identity op.plane ∧
      ((Replays s op .commit ack ∧ next = s.raise op.leaderToken) ∨
        (Fresh s op .commit ∧ alreadyThere s op = true ∧
          ack = ackOf op (s.planes.get op.plane) ∧
          next = record (s.raise op.leaderToken) op .commit (s.planes.get op.plane)) ∨
        (Fresh s op .commit ∧ alreadyThere s op = false ∧
          (∃ slot, Moves s op evidence slot) ∧
          ack = ackOf op op.placed ∧ next = moved s op evidence)) := by
  simp only [commit, bind_ok, Prod.exists] at committed
  obtain ⟨replay, admitted, admission, answered⟩ := committed
  obtain ⟨newest, alive, rfl, judged⟩ := admitOp_ok admission
  refine ⟨newest, alive, ?_⟩
  rcases judged with ⟨cached, rfl, replays⟩ | ⟨rfl, fresh⟩
  · cases answered
    exact .inl ⟨replays, rfl⟩
  · refine .inr ?_
    rcases choice_ok.mp answered with ⟨standing, answered⟩ | ⟨notStanding, answered⟩
    · cases answered
      exact .inl ⟨fresh, standing, rfl, rfl⟩
    · obtain ⟨slot, committable, answered⟩ := bind_ok.mp answered
      obtain ⟨proved, answered⟩ := guard_ok.mp answered
      cases answered
      obtain ⟨found, owned, expected, staged⟩ := committableSlot_ok committable
      exact .inr
        ⟨fresh, Bool.eq_false_iff.mpr notStanding,
          ⟨slot,
            { found := found
              owned := owned
              expected := expected
              staged := staged
              proved := by simpa using proved }⟩,
          rfl, rfl⟩

theorem finalize_ok {how : TerminalKind}
    (finalized : finalize s op how = .ok next) :
    s.maxLeaderToken ≤ op.leaderToken ∧
      ((terminalOf s op.identity op.plane = some how ∧ next = s.raise op.leaderToken) ∨
        (terminalOf s op.identity op.plane = none ∧
          next = finish (s.raise op.leaderToken) op how)) := by
  simp only [finalize, bind_ok, terminalOf_raise] at finalized
  obtain ⟨_, newest, judged⟩ := finalized
  refine ⟨assertLeader_ok.mp newest, ?_⟩
  split at judged
  · rename_i already ended
    split at judged
    · rename_i same
      simp only [Except.ok.injEq] at judged
      exact .inl ⟨by rw [ended, same], judged.symm⟩
    · cases judged
  · rename_i open_
    simp only [Except.ok.injEq] at judged
    exact .inr ⟨open_, judged.symm⟩

variable {reply : Unit}

theorem unit_ok {verdict : Except DpRejection AgentState}
    : unit verdict = .ok (reply, next) ↔ verdict = .ok next := by
  cases verdict with
  | error rejection => simp [unit, bind, Except.bind]
  | ok state => simp [unit, bind, Except.bind, pure, Except.pure]

theorem abort_ok (aborted : abort op s = .ok (reply, next)) :
    finalize s op .aborted = .ok next :=
  unit_ok.mp aborted

theorem fail_ok (failed : fail op s = .ok (reply, next)) :
    finalize s op .failed = .ok next :=
  unit_ok.mp failed

theorem release_ok (released : release op s = .ok (reply, next)) :
    s.maxLeaderToken ≤ op.leaderToken ∧
      ((terminalOf s op.identity op.plane ≠ none ∧ next = s) ∨
        (terminalOf s op.identity op.plane = none ∧
          next = forget (withoutOwnSlot s op) op)) := by
  simp only [release, bind_ok] at released
  obtain ⟨_, newest, answered⟩ := released
  refine ⟨assertLeader_ok.mp newest, ?_⟩
  split at answered
  · rename_i ended
    simp only [pure, Except.pure, Except.ok.injEq, Prod.mk.injEq] at answered
    refine .inl ⟨?_, answered.2.symm⟩
    rw [Option.isSome_iff_ne_none] at ended
    exact ended
  · rename_i open_
    simp only [pure, Except.pure, Except.ok.injEq, Prod.mk.injEq] at answered
    exact .inr ⟨by simpa using open_, answered.2.symm⟩

structure Revises (s : AgentState) (op : OperationTuple) : Prop where
  expected : (s.planes.get op.plane).coordinate = op.expectedCurrent
  sameEpoch : op.target.activationEpoch = (s.planes.get op.plane).activationEpoch
  forward : (s.planes.get op.plane).membershipRevision < op.target.membershipRevision

def revised (s : AgentState) (op : OperationTuple) : PlaneState :=
  { op.reached with author := (s.planes.get op.plane).author }

theorem applyHealth_ok (applied : applyHealth op s = .ok (ack, next)) :
    s.maxLeaderToken ≤ op.leaderToken ∧
      ¬ GivenUp s op.identity op.plane ∧
      ((Replays s op .health ack ∧ next = s.raise op.leaderToken) ∨
        (Fresh s op .health ∧ Revises s op ∧ ack = ackOf op (revised s op) ∧
          next = record
            { s.raise op.leaderToken with
              planes := s.planes.set op.plane (revised s op) }
            op .health (revised s op))) := by
  simp only [applyHealth, bind_ok, Prod.exists] at applied
  obtain ⟨replay, admitted, admission, answered⟩ := applied
  obtain ⟨newest, alive, rfl, judged⟩ := admitOp_ok admission
  refine ⟨newest, alive, ?_⟩
  rcases judged with ⟨cached, rfl, replays⟩ | ⟨rfl, fresh⟩
  · cases answered
    exact .inl ⟨replays, rfl⟩
  · obtain ⟨inside, answered⟩ := guard_ok.mp answered
    obtain ⟨forward, answered⟩ := guard_ok.mp answered
    cases answered
    rw [Bool.not_eq_true, Bool.or_eq_false_iff] at inside
    exact .inr
      ⟨fresh,
        { expected := sameCoordinate_iff.mp (by simpa using inside.1)
          sameEpoch := not_not.mp (of_decide_eq_false inside.2)
          forward := by simpa using forward },
        rfl, rfl⟩

theorem recordPublishIntent_ok {record : PublishRecord}
    (recorded : recordPublishIntent record s = .ok (reply, next)) :
    s.maxLeaderToken ≤ normalizeNumeric record.leaderToken ∧
      next = { s with lastPublishIntent := some record } := by
  simp only [recordPublishIntent, bind_ok, pure, Except.pure, Except.ok.injEq,
    Prod.mk.injEq] at recorded
  obtain ⟨_, newest, -, rfl⟩ := recorded
  exact ⟨assertLeader_ok.mp newest, rfl⟩

theorem fence_ok {leaderToken : Numeral} {reply : Nat}
    (fenced : fence leaderToken s = .ok (reply, next)) :
    s.maxLeaderToken ≤ normalizeNumeric leaderToken ∧
      reply = normalizeNumeric leaderToken ∧
      ((next = { s with maxLeaderToken := normalizeNumeric leaderToken } ∧
          ∀ holder, s.activeOperation = some holder →
            normalizeNumeric leaderToken ≤ holder.leaderToken) ∨
        ∃ holder, s.activeOperation = some holder ∧
          holder.leaderToken < normalizeNumeric leaderToken ∧
          next = supersede
            { s with maxLeaderToken := normalizeNumeric leaderToken } holder) := by
  simp only [fence, bind_ok] at fenced
  obtain ⟨_, newest, answered⟩ := fenced
  refine ⟨assertLeader_ok.mp newest, ?_⟩
  split at answered
  · rename_i idle
    cases answered
    exact ⟨rfl, .inl ⟨rfl, fun holder held => by simp [idle] at held⟩⟩
  · rename_i holder held
    split at answered
    · rename_i older
      cases answered
      exact ⟨rfl, .inr ⟨holder, held, older, rfl⟩⟩
    · rename_i notOlder
      cases answered
      refine ⟨rfl, .inl ⟨rfl, ?_⟩⟩
      intro other otherHeld
      have same : holder = other := Option.some.inj (held.symm.trans otherHeld)
      subst same
      omega

variable {op : ApplyOperation}

theorem releaseHolderSlots_ok (released : releaseHolderSlots op s = .ok (reply, next)) :
    ((∀ holder, s.activeOperation = some holder → holder.identity ≠ op.identity) ∧
        next = s) ∨
      ∃ holder, s.activeOperation = some holder ∧ holder.identity = op.identity ∧
        next = { releaseHeld s op.identity holder.epochs holder.planes with
          activeOperation := none } := by
  simp only [releaseHolderSlots] at released
  split at released
  · rename_i idle
    simp only [Except.ok.injEq, Prod.mk.injEq] at released
    exact .inl ⟨fun holder held => by simp [idle] at held, released.2.symm⟩
  · rename_i holder held
    rcases choice_ok.mp released with ⟨other, answered⟩ | ⟨same, answered⟩
    · simp only [Except.ok.injEq, Prod.mk.injEq] at answered
      refine .inl ⟨?_, answered.2.symm⟩
      intro found foundHeld
      rw [held, Option.some.injEq] at foundHeld
      exact foundHeld ▸ other
    · simp only [Except.ok.injEq, Prod.mk.injEq] at answered
      exact .inr ⟨holder, held, not_not.mp same, answered.2.symm⟩

theorem releaseStaleSlots_ok (released : releaseStaleSlots op s = .ok (reply, next)) :
    (s.activeOperation ≠ none ∧ next = s) ∨
      (s.activeOperation = none ∧
        next = releaseHeld s op.identity (epochsOf op) (planesOfOperation op)) := by
  simp only [releaseStaleSlots] at released
  split at released
  · rename_i holder held
    simp only [Except.ok.injEq, Prod.mk.injEq] at released
    exact .inl ⟨by simp [held], released.2.symm⟩
  · rename_i idle
    simp only [Except.ok.injEq, Prod.mk.injEq] at released
    exact .inr ⟨idle, released.2.symm⟩

theorem ownsJournal_some {entry : JournalEntry} :
    ownsJournal (some entry) op = true ↔ entry.op.identity = op.identity := by
  simp [ownsJournal]

theorem closeJournal_ok {how : Option ApplyPhase}
    (closed : closeJournal op how s = .ok (reply, next)) :
    next = s ∨
      ∃ entry phase, s.journal = some entry ∧ how = some phase ∧
        entry.op.identity = op.identity ∧ isTerminalPhase entry.phase = false ∧
        next = { s with journal := some (entry.closedAs phase) } := by
  simp only [closeJournal] at closed
  split at closed
  · rename_i entry phase journal
    rcases choice_ok.mp closed with ⟨-, answered⟩ | ⟨owned, answered⟩
    · simp only [Except.ok.injEq, Prod.mk.injEq] at answered
      exact .inl answered.2.symm
    · rcases choice_ok.mp answered with ⟨-, answered⟩ | ⟨unfinished, answered⟩
      · simp only [Except.ok.injEq, Prod.mk.injEq] at answered
        exact .inl answered.2.symm
      · simp only [Except.ok.injEq, Prod.mk.injEq] at answered
        rw [journal] at owned
        exact .inr ⟨entry, phase, journal, rfl,
          ownsJournal_some.mp (by simpa using owned),
          Bool.eq_false_iff.mpr unfinished, answered.2.symm⟩
  · simp only [Except.ok.injEq, Prod.mk.injEq] at closed
    exact .inl closed.2.symm

theorem releaseIdleHolder_ok {reply : Bool}
    (released : releaseIdleHolder s = .ok (reply, next)) :
    next = s ∨
      ∃ holder, s.activeOperation = some holder ∧ s.journal = none ∧
        next = { s with
          reservations := dropSlots holder.epochs holder.planes s.reservations
          activeOperation := none } := by
  simp only [releaseIdleHolder] at released
  split at released
  · simp only [Except.ok.injEq, Prod.mk.injEq] at released
    exact .inl released.2.symm
  · rename_i holder held
    rcases choice_ok.mp released with ⟨-, answered⟩ | ⟨unopened, answered⟩
    · simp only [Except.ok.injEq, Prod.mk.injEq] at answered
      exact .inl answered.2.symm
    · simp only [Except.ok.injEq, Prod.mk.injEq] at answered
      exact .inr ⟨holder, held, by simpa using unopened, answered.2.symm⟩

theorem reclaimOperation_ok {reply : Bool} (reclaimed : reclaimOperation op s = .ok (reply, next)) :
    (s.activeOperation ≠ none ∧ next = s) ∨
      (s.activeOperation = none ∧
        s.maxLeaderToken ≤ normalizeNumeric op.leaderToken ∧
        next = { s with activeOperation := some (holderOf op) }) := by
  simp only [reclaimOperation] at reclaimed
  split at reclaimed
  · rename_i holder held
    simp only [Except.ok.injEq, Prod.mk.injEq] at reclaimed
    exact .inl ⟨by simp [held], reclaimed.2.symm⟩
  · rename_i idle
    simp only [bind_ok, pure, Except.pure, Except.ok.injEq, Prod.mk.injEq] at reclaimed
    obtain ⟨_, newest, -, rfl⟩ := reclaimed
    exact .inr ⟨idle, assertLeader_ok.mp newest, rfl⟩

theorem writeJournal_ok {entry : JournalEntry}
    (written : writeJournal entry s = .ok (reply, next)) :
    s.maxLeaderToken ≤ normalizeNumeric entry.op.leaderToken ∧
      (∃ holder, s.activeOperation = some holder ∧
        sameTransitionName holder.identity entry.op.identity = true) ∧
      entry.seq = (s.journal.map JournalEntry.seq).getD 0 + 1 ∧
      next = { s with journal := some entry } := by
  simp only [writeJournal, bind_ok] at written
  obtain ⟨_, newest, written⟩ := written
  obtain ⟨mine, written⟩ := guard_ok.mp written
  obtain ⟨successor, written⟩ := guard_ok.mp written
  simp only [pure, Except.pure, Except.ok.injEq, Prod.mk.injEq] at written
  refine ⟨assertLeader_ok.mp newest, ?_, not_not.mp successor, written.2.symm⟩
  have mine := Bool.not_eq_false _ ▸ mine
  cases held : s.activeOperation with
  | none => simp [held] at mine
  | some holder => exact ⟨holder, rfl, by simpa [held] using mine⟩

theorem assertPathFree_ok {result : Unit} :
    assertPathFree s op = .ok result ↔
      ∀ holder, s.activeOperation = some holder →
        sameTransitionName holder.identity op.identity = true := by
  simp only [assertPathFree]
  split
  · rename_i idle
    simp [idle]
  · rename_i holder held
    by_cases same : sameTransitionName holder.identity op.identity = true
    · simp [held, same]
    · simp [held, same]

end Agent

variable {op : ApplyOperation} {plane : Plane} {tuple : OperationTuple}

theorem tupleFor_ok :
    tupleFor op plane = .ok tuple ↔
      ∃ target, op.planes.get plane = some target ∧
        tuple =
          { leaderToken := normalizeNumeric op.leaderToken
            operationId := op.operationId
            transitionId := op.transitionId
            plane := plane
            expectedCurrent := normalizeCoordinate target.expectedCurrent
            target := normalizeCoordinate target.target
            payloadDigest := target.payloadDigest
            targetGeneration := op.targetGeneration
            generationDigest := op.generationDigest } := by
  simp only [tupleFor]
  cases op.planes.get plane with
  | none => simp
  | some target => simp [eq_comm]

theorem tupleFor_identity
    (extracted : tupleFor op plane = .ok tuple) : tuple.identity = op.identity := by
  obtain ⟨target, -, rfl⟩ := tupleFor_ok.mp extracted
  rfl

theorem tupleFor_leaderToken (extracted : tupleFor op plane = .ok tuple) :
    tuple.leaderToken = normalizeNumeric op.leaderToken := by
  obtain ⟨target, -, rfl⟩ := tupleFor_ok.mp extracted
  rfl

theorem tupleFor_plane (extracted : tupleFor op plane = .ok tuple) : tuple.plane = plane := by
  obtain ⟨target, -, rfl⟩ := tupleFor_ok.mp extracted
  rfl

theorem epochsOf_get (extracted : tupleFor op plane = .ok tuple) :
    (epochsOf op).get plane = some tuple.target.activationEpoch := by
  obtain ⟨target, found, rfl⟩ := tupleFor_ok.mp extracted
  cases plane <;> simp_all [epochsOf, PerPlane.get, normalizeCoordinate]

end Barycenter.Dp
