import Barycenter.Dp.AgentRecords
import Barycenter.Dp.CoordinateSafety

/-!
# When the guard passes

The guard compares two states.  `GuardReady` is what the first of them has to
be for the second one to pass, and it is an invariant: the holder acts under
the newest token, nothing that is stored carries a token that has not been
seen, slots lie ahead of the coordinate they were claimed from, and a place in
the ledger names the plane of its key.

`Tended` says once, for every operation, what it does to the right, the intent,
the candidate, the baseline and the journal.
-/

namespace Barycenter.Dp

def PublishRecord.token (record : PublishRecord) : Nat := normalizeNumeric record.leaderToken

def ApplyOperation.token (op : ApplyOperation) : Nat := normalizeNumeric op.leaderToken

structure GuardReady (s : AgentState) : Prop where
  right : ∀ holder, s.activeOperation = some holder → holder.leaderToken = s.maxLeaderToken
  intent : ∀ record, s.lastPublishIntent = some record → record.token ≤ s.maxLeaderToken
  baseline : ∀ record, s.lastActivated = some record → record.token ≤ s.maxLeaderToken
  candidate : ∀ record, s.pendingActivation = some record → record.token ≤ s.maxLeaderToken
  journal : ∀ entry, s.journal = some entry → entry.op.token ≤ s.maxLeaderToken
  slots : ∀ plane epoch slot, s.slot plane epoch = some slot →
    slot.op.leaderToken ≤ s.maxLeaderToken
  forward : SlotsForward s
  unsigned : ∀ plane, (s.planes.get plane).author = none →
    (s.planes.get plane).activationEpoch = 0
  places : ∀ name place, s.terminalAt.get? name = some place →
    ∃ who, name = transitionKey who place.plane

/-- A token the agent has let in, or one the operation itself checks. -/
def Issuable (newest : Nat) : AgentOp → Prop
  | .reserve op | .stage op | .commit op _ | .fail op => op.leaderToken ≤ newest
  | .recordPublishIntent record => record.token ≤ newest
  | .reclaimOperation op => op.token ≤ newest
  | .writeJournal entry => entry.op.token ≤ newest
  | .reserveAll op opening => ∀ first, opening = some first → first.op = op
  | _ => True

/-- A token that would raise the newest one while somebody holds the right. -/
def Overtakes (s : AgentState) (token : Nat) : Prop :=
  s.maxLeaderToken < token ∧ s.activeOperation.isSome = true

/-- An accepted abort or health delta does not raise the token over a holder,
and a commit that is about to move finds its own slot, or asks forward all the
same. -/
def Unhindered (s : AgentState) : AgentOp → Prop
  | .abort op => Overtakes s op.leaderToken →
      terminalOf s op.identity op.plane ≠ none ∧
        terminalOf s op.identity op.plane ≠ some .aborted
  | .applyHealth op => Overtakes s op.leaderToken →
      GivenUp s op.identity op.plane ∨
        ((∀ ack, ¬ Replays s op .health ack) ∧ ¬ (Fresh s op .health ∧ Agent.Revises s op))
  | .commit op evidence => ∀ slot, Agent.Moves s op evidence slot →
      slot.op = op ∨ op.expectedCurrent.activationEpoch ≤ op.target.activationEpoch
  | _ => True

/-- What an operation does to the right, the intent, the candidate, the baseline
and the journal. -/
structure Tended (s changed : AgentState) : Prop where
  right : ∀ holder, changed.activeOperation = some holder →
    holder.leaderToken = changed.maxLeaderToken
  intent : ∀ record, changed.lastPublishIntent = some record →
    s.lastPublishIntent = some record ∨ record.token = changed.maxLeaderToken
  baseline : ∀ record, changed.lastActivated = some record →
    s.lastActivated = some record ∨ s.pendingActivation = some record
  candidate : ∀ record, changed.pendingActivation = some record →
    s.pendingActivation = some record ∨ record.token ≤ changed.maxLeaderToken
  closed : ∀ dropped, s.pendingActivation = some dropped → changed.pendingActivation = none →
    candidateArrived changed dropped
      (s.pendingEpochs.or (epochsFromJournal s dropped.identity)) = true →
    changed.lastActivated = some dropped
  journal : ∀ entry, changed.journal = some entry → entry.op.token ≤ changed.maxLeaderToken
  forward : ∀ was now, s.journal = some was → changed.journal = some now → was.seq ≤ now.seq

/-- The right, the intent, the candidate, the baseline and the journal are all
as they were. -/
structure SameControl (s changed : AgentState) : Prop where
  right : changed.activeOperation = s.activeOperation
  intent : changed.lastPublishIntent = s.lastPublishIntent
  baseline : changed.lastActivated = s.lastActivated
  candidate : changed.pendingActivation = s.pendingActivation
  journal : changed.journal = s.journal

variable {s changed : AgentState}

theorem SameControl.tended (same : SameControl s changed)
    (ready : GuardReady s) (newest : s.maxLeaderToken ≤ changed.maxLeaderToken)
    (still : s.activeOperation.isSome = true → changed.maxLeaderToken = s.maxLeaderToken) :
    Tended s changed where
  right := by
    intro holder held
    rw [same.right] at held
    rw [ready.right holder held, still (by rw [held]; rfl)]
  intent := fun record found => .inl (same.intent ▸ found)
  baseline := fun record found => .inl (same.baseline ▸ found)
  candidate := fun record found => .inl (same.candidate ▸ found)
  closed := by
    intro dropped pending gone
    rw [same.candidate, pending] at gone
    cases gone
  journal := by
    intro entry found
    rw [same.journal] at found
    exact (ready.journal entry found).trans newest
  forward := by
    intro was now before after
    rw [same.journal, before, Option.some.injEq] at after
    exact after ▸ le_refl _

theorem raise_seen {token : Nat} (seen : token ≤ s.maxLeaderToken) :
    (s.raise token).maxLeaderToken = s.maxLeaderToken := by
  simp [seen]

theorem sameTransitionName_iff {left right : Identity} :
    sameTransitionName left right = true ↔
      left.operationId = right.operationId ∧ left.transitionId = right.transitionId := by
  simp [sameTransitionName]

variable {who : Identity}

theorem candidateNamed_some {candidate : PublishRecord} :
    candidateNamed s who = some candidate ↔
      s.pendingActivation = some candidate ∧
        sameTransitionName candidate.identity who = true := by
  simp only [candidateNamed, Option.filter_eq_some_iff]

/-- The baseline, the candidate and the journal as a state has them once the
candidate of a name is closed. -/
structure CandidateClosed (s changed : AgentState) (who : Identity) : Prop where
  baseline : changed.lastActivated = (finalizeCandidate s who).lastActivated
  candidate : changed.pendingActivation = (finalizeCandidate s who).pendingActivation
  planes : changed.planes = s.planes
  terminal : changed.terminal = s.terminal

theorem CandidateClosed.from_old (closed : CandidateClosed s changed who) {record : PublishRecord}
    (found : changed.lastActivated = some record) :
    s.lastActivated = some record ∨ s.pendingActivation = some record := by
  rw [closed.baseline] at found
  simp only [finalizeCandidate] at found
  split at found
  · exact .inl found
  · rename_i candidate named
    have pending := (candidateNamed_some.mp named).1
    simp only [settledBaseline] at found
    split at found
    · cases found
      exact .inr pending
    · split at found
      · cases found
      · exact .inl found

theorem CandidateClosed.candidate_from_old
    (closed : CandidateClosed s changed who) {record : PublishRecord}
    (found : changed.pendingActivation = some record) :
    s.pendingActivation = some record := by
  rw [closed.candidate] at found
  simp only [finalizeCandidate] at found
  split at found
  · cases found
  · exact found

theorem candidateArrived_congr {left right : AgentState} (planes : left.planes = right.planes)
    (terminal : left.terminal = right.terminal) (candidate : PublishRecord)
    (epochs : Option (PerPlane (Option Nat))) :
    candidateArrived left candidate epochs = candidateArrived right candidate epochs := by
  have reads : ∀ s : AgentState, candidateArrived s candidate epochs =
      candidateArrived { initial with planes := s.planes, terminal := s.terminal } candidate
        epochs :=
    fun _ => rfl
  rw [reads left, reads right, planes, terminal]

theorem epochsFromJournal_of_name (s : AgentState) {left right : Identity}
    (sameName : sameTransitionName left right = true) :
    epochsFromJournal s left = epochsFromJournal s right := by
  have same : ∀ who, sameTransitionName who left = sameTransitionName who right := by
    intro who
    obtain ⟨operation, transition⟩ := sameTransitionName_iff.mp sameName
    simp only [sameTransitionName, operation, transition]
  simp only [epochsFromJournal, same]

/-- A candidate that is dropped has its name closed, and stays as the baseline
when it arrived. -/
theorem CandidateClosed.arrived (closed : CandidateClosed s changed who) {dropped : PublishRecord}
    (pending : s.pendingActivation = some dropped)
    (gone : changed.pendingActivation = none)
    (arrived : candidateArrived changed dropped
      (s.pendingEpochs.or (epochsFromJournal s dropped.identity)) = true) :
    changed.lastActivated = some dropped := by
  rw [closed.candidate] at gone
  have named : candidateNamed s who = some dropped := by
    refine candidateNamed_some.mpr ⟨pending, ?_⟩
    by_contra other
    have unnamed : candidateNamed s who = none := by
      simpa [candidateNamed, pending] using other
    simp [finalizeCandidate, unnamed, pending] at gone
  have sameName := (candidateNamed_some.mp named).2
  rw [candidateArrived_congr closed.planes closed.terminal,
    epochsFromJournal_of_name s sameName] at arrived
  rw [closed.baseline]
  simp only [finalizeCandidate, named, settledBaseline, arrived, if_true]

theorem closeNamed_journal {now : JournalEntry}
    (found : (closeNamed s who).journal = some now) :
    ∃ was, s.journal = some was ∧ now.op = was.op ∧ was.seq ≤ now.seq := by
  simp only [closeNamed, Option.map_eq_some_iff] at found
  obtain ⟨was, before, rfl⟩ := found
  refine ⟨was, before, ?_⟩
  split
  · exact ⟨rfl, Nat.le_succ _⟩
  · exact ⟨rfl, le_refl _⟩

theorem epochsFromJournal_closeNamed (s : AgentState) (who other : Identity) :
    epochsFromJournal (closeNamed s who) other = epochsFromJournal s other := by
  simp only [epochsFromJournal, closeNamed]
  cases s.journal with
  | none => rfl
  | some entry =>
      simp only [Option.map_some]
      split <;> rfl

theorem supersede_closes (s : AgentState) (holder : ActiveOperation) :
    CandidateClosed s (supersede s holder) holder.identity where
  baseline := by
    change (finalizeCandidate (closeNamed (releaseHeld s _ _ _) _) _).lastActivated = _
    have epochs := epochsFromJournal_closeNamed
      (releaseHeld s holder.identity holder.epochs holder.planes) holder.identity
      holder.identity
    simp only [finalizeCandidate, settledBaseline, epochs]
    rfl
  candidate := rfl
  planes := rfl
  terminal := rfl

theorem supersede_right {holder : ActiveOperation}
    (held : s.activeOperation = some holder) :
    (supersede s holder).activeOperation = none := by
  change s.activeOperation.filter (fun found => found.identity ≠ holder.identity) = none
  rw [held]
  simp

variable {op : ApplyOperation}

theorem openJournal_journal {opening : Option JournalOpening} {now : JournalEntry}
    (found : (Agent.openJournal op opening s).journal = some now) :
    s.journal = some now ∨
      (∃ first, opening = some first ∧ now.op = first.op ∧
        now.seq = (s.journal.map JournalEntry.seq).getD 0 + 1) := by
  cases opening with
  | none => exact .inl found
  | some first =>
      simp only [Agent.openJournal] at found
      split at found
      · exact .inl found
      · cases found
        exact .inr ⟨first, rfl, rfl, rfl⟩

variable {next : AgentState}

theorem Agent.reserve_newest {op : OperationTuple} {ack : PlaneAck}
    (reserved : reserve op s = .ok (ack, next)) :
    next.maxLeaderToken = max s.maxLeaderToken op.leaderToken := by
  obtain ⟨-, -, cases⟩ := reserve_ok reserved
  rcases cases with ⟨-, rfl⟩ | ⟨-, -, slot, taken, acquired, rfl⟩
  · exact raise_maxLeaderToken s op.leaderToken
  · obtain ⟨reservations, rfl⟩ := acquire_only acquired
    exact raise_maxLeaderToken s op.leaderToken

theorem Agent.stage_newest {op : OperationTuple} {ack : PlaneAck}
    (staged : stage op s = .ok (ack, next)) :
    next.maxLeaderToken = max s.maxLeaderToken op.leaderToken := by
  obtain ⟨-, -, cases⟩ := stage_ok staged
  rcases cases with ⟨-, rfl⟩ | ⟨-, -, slot, taken, acquired, rfl⟩
  · exact raise_maxLeaderToken s op.leaderToken
  · obtain ⟨reservations, rfl⟩ := acquire_only acquired
    exact raise_maxLeaderToken s op.leaderToken

theorem Agent.reserves_newest {tuples : List OperationTuple}
    {acks : List PlaneAck} {token : Nat} (some_ : tuples ≠ [])
    (carried : ∀ tuple ∈ tuples, tuple.leaderToken = token)
    (newest : s.maxLeaderToken ≤ token)
    (reserved : Outcome.traverse reserve tuples s = .ok (acks, next)) :
    next.maxLeaderToken = token := by
  cases tuples with
  | nil => exact absurd rfl some_
  | cons first rest =>
      obtain ⟨ack, middle, others, stepped, walked, -⟩ := Outcome.traverse_cons.mp reserved
      have reached := reserve_newest stepped
      rw [carried first List.mem_cons_self, max_eq_right newest] at reached
      refine Outcome.traverse_preserves (fun s => s.maxLeaderToken = token) ?_ reached walked
      intro tuple member current ack later kept step
      rw [reserve_newest step, kept, carried tuple (List.mem_cons_of_mem _ member), max_self]

theorem tuplesOf_token {tuples : List OperationTuple}
    (extracted : Agent.tuplesOf op = .ok tuples) :
    ∀ tuple ∈ tuples, tuple.leaderToken = op.token := by
  intro tuple member
  exact tupleFor_leaderToken ((Agent.tuplesOf_ok extracted).2 tuple member)

theorem closeNamed_seen (ready : GuardReady s) :
    (∀ entry, (closeNamed s who).journal = some entry → entry.op.token ≤ s.maxLeaderToken) ∧
      ∀ was now, s.journal = some was → (closeNamed s who).journal = some now →
        was.seq ≤ now.seq := by
  constructor
  · intro entry found
    obtain ⟨was, before, same, -⟩ := closeNamed_journal found
    rw [same]
    exact ready.journal was before
  · intro was now before after
    obtain ⟨old, found, -, forward⟩ := closeNamed_journal after
    rw [before, Option.some.injEq] at found
    exact found ▸ forward

theorem fence_tended {leaderToken : Numeral} {reply : Nat}
    (ready : GuardReady s) (fenced : Agent.fence leaderToken s = .ok (reply, changed)) :
    Tended s changed := by
  obtain ⟨newest, -, cases⟩ := Agent.fence_ok fenced
  rcases cases with ⟨rfl, newer⟩ | ⟨holder, held, -, rfl⟩
  · exact
      { right := fun holder held =>
          le_antisymm ((ready.right holder held).trans_le newest) (newer holder held)
        intent := fun _ found => .inl found
        baseline := fun _ found => .inl found
        candidate := fun _ found => .inl found
        closed := by
          intro dropped pending gone
          exact absurd (pending.symm.trans gone) (by simp)
        journal := fun entry found => (ready.journal entry found).trans newest
        forward := by
          intro was now before after
          cases before.symm.trans after
          exact le_refl _ }
  · let raised := { s with maxLeaderToken := normalizeNumeric leaderToken }
    have closes := supersede_closes raised holder
    have vacant : (supersede raised holder).activeOperation = none := supersede_right held
    obtain ⟨seen, forward⟩ := @closeNamed_seen s holder.identity ready
    exact
      { right := by
          intro other stillHeld
          exact absurd (vacant.symm.trans stillHeld) (by simp)
        intent := fun _ found => .inl found
        baseline := fun _ found => closes.from_old found
        candidate := fun _ found => .inl (closes.candidate_from_old found)
        closed := fun _ pending gone arrived => closes.arrived pending gone arrived
        journal := fun entry found => (seen entry found).trans newest
        forward := forward }

theorem reserveAll_tended
    {opening : Option JournalOpening} {acks : List PlaneAck} (ready : GuardReady s)
    (opens : ∀ first, opening = some first → first.op = op)
    (reserved : Agent.reserveAll op opening s = .ok (acks, changed)) : Tended s changed := by
  obtain ⟨tuples, swept, taken, extracted, some_, newest, free, sweeping, walked, rfl⟩ :=
    Agent.reserveAll_ok reserved
  have upper : s.maxLeaderToken ≤ op.token := newest
  obtain ⟨-, -, sweptNewest, -⟩ := sweepOrphan_only sweeping
  have raised := Agent.reserves_newest some_ (tuplesOf_token extracted)
    (sweptNewest.trans_le upper) walked
  obtain ⟨token, reservations, completed, -, rfl⟩ := Agent.reserves_only walked
  obtain rfl : token = op.token := raised
  -- What the sweep left of the baseline, the candidate and the journal.
  have left : swept.lastPublishIntent = s.lastPublishIntent ∧
      (∀ record, swept.lastActivated = some record →
        s.lastActivated = some record ∨ s.pendingActivation = some record) ∧
      (∀ record, swept.pendingActivation = some record →
        s.pendingActivation = some record) ∧
      (∀ dropped, s.pendingActivation = some dropped → swept.pendingActivation = none →
        candidateArrived swept dropped
          (s.pendingEpochs.or (epochsFromJournal s dropped.identity)) = true →
        swept.lastActivated = some dropped) ∧
      (∀ entry, swept.journal = some entry → entry.op.token ≤ s.maxLeaderToken) ∧
      ∀ was, s.journal = some was → ∃ now, swept.journal = some now ∧ was.seq ≤ now.seq := by
    rcases Agent.sweepOrphan_ok sweeping with ⟨-, rfl⟩ |
      ⟨stale, stamped, staleTuples, -, -, -, -, stamping, -, rfl⟩
    · refine ⟨rfl, fun _ found => .inl found, fun _ found => found, ?_, ready.journal, ?_⟩
      · intro dropped pending gone
        exact absurd (pending.symm.trans gone) (by simp)
      · exact fun was before => ⟨was, before, le_refl _⟩
    · obtain ⟨terminal, rfl⟩ := stamping.only
      have closes := supersede_closes { s with terminal := terminal }
        (Agent.holderWith stale.op staleTuples)
      obtain ⟨seen, forward⟩ :=
        @closeNamed_seen s (Agent.holderWith stale.op staleTuples).identity ready
      refine ⟨rfl, fun _ found => closes.from_old found,
        fun _ found => closes.candidate_from_old found,
        fun _ pending gone arrived => closes.arrived pending gone arrived, seen, ?_⟩
      intro was before
      cases after : (closeNamed s (Agent.holderWith stale.op staleTuples).identity).journal with
      | none => simp [closeNamed, before] at after
      | some now => exact ⟨now, after, forward was now before after⟩
  obtain ⟨intent, baseline, candidate, closed, seen, forward⟩ := left
  obtain ⟨journal, opened⟩ := Agent.openJournal_only op opening
    { swept with
      maxLeaderToken := op.token
      reservations := reservations
      completed := completed
      activeOperation := some (Agent.holderWith op tuples) }
  have entries := fun now => @openJournal_journal
    { swept with
      maxLeaderToken := op.token
      reservations := reservations
      completed := completed
      activeOperation := some (Agent.holderWith op tuples) } op opening now
  rw [opened] at entries ⊢
  exact
    { right := by
        intro holder held
        cases held
        rfl
      intent := fun _ found => .inl (intent ▸ found)
      baseline := baseline
      candidate := fun _ found => .inl (candidate _ found)
      closed := closed
      journal := by
        intro now found
        rcases entries now found with old | ⟨first, given, same, -⟩
        · exact (seen now old).trans upper
        · rw [same, opens first given]
      forward := by
        intro was now before found
        obtain ⟨middle, left, later⟩ := forward was before
        rcases entries now found with old | ⟨first, -, -, sequence⟩
        · cases left.symm.trans old
          exact later
        · have sequence : now.seq = middle.seq + 1 := by
            rw [sequence]
            simp [left]
          omega }

theorem moved_tended {op : OperationTuple} {evidence : ActivationEvidence}
    (ready : GuardReady s) (seen : op.leaderToken ≤ s.maxLeaderToken) :
    Tended s (Agent.moved s op evidence) := by
  have same : (Agent.moved s op evidence).maxLeaderToken = s.maxLeaderToken := raise_seen seen
  exact
    { right := fun holder held => (ready.right holder held).trans same.symm
      intent := fun _ found => .inl found
      baseline := fun _ found => .inl found
      candidate := by
        intro record found
        cases found
        rw [same]
        exact .inr seen
      closed := fun _ _ gone => absurd gone (by simp [Agent.moved, record, finish, Agent.place])
      journal := fun entry found => by
        rw [same]
        exact ready.journal entry found
      forward := by
        intro was now before after
        cases before.symm.trans after
        exact le_refl _ }

theorem finishOperation_tended {releasePlanes : List Plane} {reply : Unit} (ready : GuardReady s)
    (finished : Agent.finishOperation op releasePlanes s = .ok (reply, changed)) :
    Tended s changed := by
  obtain ⟨freed, freeing, rfl⟩ := Agent.finishOperation_ok finished
  obtain ⟨reservations, rfl⟩ := freeing.only
  let vacated := vacate
    { finalizeCandidate s op.identity with reservations := reservations } op.identity
  have closes : CandidateClosed s vacated op.identity := ⟨rfl, rfl, rfl, rfl⟩
  exact
    { right := by
        intro holder held
        have held : s.activeOperation.filter
            (fun found => found.identity ≠ op.identity) = some holder := held
        exact ready.right holder (Option.filter_eq_some_iff.mp held).1
      intent := fun _ found => .inl found
      baseline := fun _ found => closes.from_old found
      candidate := fun _ found => .inl (closes.candidate_from_old found)
      closed := fun _ pending gone arrived => closes.arrived pending gone arrived
      journal := ready.journal
      forward := by
        intro was now before after
        cases before.symm.trans after
        exact le_refl _ }

theorem finalize_tended {op : OperationTuple} {how : TerminalKind}
    (ready : GuardReady s) (seen : s.activeOperation.isSome = true →
      (terminalOf s op.identity op.plane = none ∨
        terminalOf s op.identity op.plane = some how) → op.leaderToken ≤ s.maxLeaderToken)
    (finalized : finalize s op how = .ok changed) : Tended s changed := by
  obtain ⟨-, cases⟩ := Agent.finalize_ok finalized
  rcases cases with ⟨ended, rfl⟩ | ⟨unended, rfl⟩
  · refine SameControl.tended ⟨rfl, rfl, rfl, rfl, rfl⟩ ready (le_raise s _) ?_
    exact fun held => raise_seen (seen held (.inr ended))
  · refine SameControl.tended ⟨rfl, rfl, rfl, rfl, rfl⟩ ready (le_raise s _) ?_
    exact fun held => raise_seen (seen held (.inl unended))

theorem mutate_tended {o : AgentOp} {reply : o.Reply}
    (ready : GuardReady s) (issuable : Issuable s.maxLeaderToken o)
    (unhindered : Unhindered s o) (mutated : o.mutate s = .ok (reply, changed)) :
    Tended s changed := by
  cases o with
  | fence leaderToken => exact fence_tended ready mutated
  | reserveAll op opening => exact reserveAll_tended ready issuable mutated
  | reserve op =>
      have raised := Agent.reserve_newest mutated
      obtain ⟨token, _, _, newest, rfl⟩ := Agent.reserve_only mutated
      exact SameControl.tended ⟨rfl, rfl, rfl, rfl, rfl⟩ ready newest
        fun _ => raised.trans (max_eq_left issuable)
  | stage op =>
      have raised := Agent.stage_newest mutated
      obtain ⟨token, _, _, newest, rfl⟩ := Agent.stage_only mutated
      exact SameControl.tended ⟨rfl, rfl, rfl, rfl, rfl⟩ ready newest
        fun _ => raised.trans (max_eq_left issuable)
  | commit op evidence =>
      have still : (s.raise op.leaderToken).maxLeaderToken = s.maxLeaderToken :=
        raise_seen issuable
      obtain ⟨-, -, cases⟩ := Agent.commit_ok mutated
      rcases cases with ⟨-, rfl⟩ | ⟨-, -, -, rfl⟩ | ⟨-, -, -, -, rfl⟩
      · exact SameControl.tended ⟨rfl, rfl, rfl, rfl, rfl⟩ ready (le_raise s _) fun _ => still
      · exact SameControl.tended ⟨rfl, rfl, rfl, rfl, rfl⟩ ready (le_raise s _) fun _ => still
      · exact moved_tended ready issuable
  | abort op =>
      refine finalize_tended ready ?_ (Agent.abort_ok mutated)
      intro held ended
      by_contra newer
      have refused := unhindered ⟨by omega, held⟩
      rcases ended with unended | aborted
      · exact refused.1 unended
      · exact refused.2 aborted
  | release op =>
      obtain ⟨-, cases⟩ := Agent.release_ok mutated
      rcases cases with ⟨-, rfl⟩ | ⟨-, rfl⟩
      · exact SameControl.tended ⟨rfl, rfl, rfl, rfl, rfl⟩ ready (le_refl _) fun _ => rfl
      · exact SameControl.tended ⟨rfl, rfl, rfl, rfl, rfl⟩ ready (le_refl _) fun _ => rfl
  | fail op => exact finalize_tended ready (fun _ _ => issuable) (Agent.fail_ok mutated)
  | applyHealth op =>
      obtain ⟨newest, alive, cases⟩ := Agent.applyHealth_ok mutated
      have still : s.activeOperation.isSome = true →
          (s.raise op.leaderToken).maxLeaderToken = s.maxLeaderToken := by
        intro held
        refine raise_seen ?_
        by_contra newer
        rcases unhindered ⟨by omega, held⟩ with givenUp | ⟨noReplay, notFresh⟩
        · exact alive givenUp
        · rcases cases with ⟨replays, -⟩ | ⟨fresh, revises, -, -⟩
          · exact noReplay _ replays
          · exact notFresh ⟨fresh, revises⟩
      rcases cases with ⟨-, rfl⟩ | ⟨-, -, -, rfl⟩
      · exact SameControl.tended ⟨rfl, rfl, rfl, rfl, rfl⟩ ready (le_raise s _) still
      · exact SameControl.tended ⟨rfl, rfl, rfl, rfl, rfl⟩ ready (le_raise s _) still
  | recordPublishIntent record =>
      obtain ⟨newest, rfl⟩ := Agent.recordPublishIntent_ok mutated
      have kept := SameControl.tended (⟨rfl, rfl, rfl, rfl, rfl⟩ : SameControl s s) ready
        (le_refl _) fun _ => rfl
      refine { kept with intent := ?_ }
      intro written found
      cases found
      exact .inr (le_antisymm issuable newest)
  | releaseHolderSlots op =>
      have kept := SameControl.tended (⟨rfl, rfl, rfl, rfl, rfl⟩ : SameControl s s) ready
        (le_refl _) fun _ => rfl
      rcases Agent.releaseHolderSlots_ok mutated with ⟨-, rfl⟩ | ⟨holder, -, -, rfl⟩
      · exact kept
      · exact { kept with right := nofun }
  | releaseStaleSlots op =>
      rcases Agent.releaseStaleSlots_ok mutated with ⟨-, rfl⟩ | ⟨-, rfl⟩
      · exact SameControl.tended ⟨rfl, rfl, rfl, rfl, rfl⟩ ready (le_refl _) fun _ => rfl
      · exact SameControl.tended ⟨rfl, rfl, rfl, rfl, rfl⟩ ready (le_refl _) fun _ => rfl
  | closeJournal op how =>
      have kept := SameControl.tended (⟨rfl, rfl, rfl, rfl, rfl⟩ : SameControl s s) ready
        (le_refl _) fun _ => rfl
      rcases Agent.closeJournal_ok mutated with rfl | ⟨entry, phase, found, -, -, -, rfl⟩
      · exact kept
      · refine { kept with journal := ?_, forward := ?_ }
        · intro now closed
          cases closed
          exact ready.journal entry found
        · intro was now before closed
          cases closed
          cases found.symm.trans before
          exact Nat.le_succ _
  | releaseIdleHolder =>
      have kept := SameControl.tended (⟨rfl, rfl, rfl, rfl, rfl⟩ : SameControl s s) ready
        (le_refl _) fun _ => rfl
      rcases Agent.releaseIdleHolder_ok mutated with rfl | ⟨holder, -, -, rfl⟩
      · exact kept
      · exact { kept with right := nofun }
  | reclaimOperation op =>
      have kept := SameControl.tended (⟨rfl, rfl, rfl, rfl, rfl⟩ : SameControl s s) ready
        (le_refl _) fun _ => rfl
      rcases Agent.reclaimOperation_ok mutated with ⟨-, rfl⟩ | ⟨-, newest, rfl⟩
      · exact kept
      · refine { kept with right := ?_ }
        intro holder held
        cases held
        exact le_antisymm issuable newest
  | finishOperation op releasePlanes => exact finishOperation_tended ready mutated
  | writeJournal entry =>
      have kept := SameControl.tended (⟨rfl, rfl, rfl, rfl, rfl⟩ : SameControl s s) ready
        (le_refl _) fun _ => rfl
      obtain ⟨-, -, successor, rfl⟩ := Agent.writeJournal_ok mutated
      refine { kept with journal := ?_, forward := ?_ }
      · intro now written
        cases written
        exact issuable
      · intro was now before written
        cases written
        rw [successor, before]
        exact Nat.le_succ _

end Barycenter.Dp
