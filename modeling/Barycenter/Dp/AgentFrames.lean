import Mathlib.Order.MinMax
import Barycenter.Dp.AgentSlots

/-!
# What each operation leaves alone

The coordinates, the newest token, the evidence, the right and the journal:
which operations change them at all.
-/

namespace Barycenter.Dp

open Outcome

/-- Reserving changes the newest token, the slots and the cached answers. -/
def ReserveOnly (s next : AgentState) : Prop :=
  ∃ token reservations completed,
    s.maxLeaderToken ≤ token ∧
      next = { s with
        maxLeaderToken := token
        reservations := reservations
        completed := completed }

variable {s next : AgentState}

theorem ReserveOnly.trans {middle : AgentState}
    (first : ReserveOnly s middle) (second : ReserveOnly middle next) :
    ReserveOnly s next := by
  obtain ⟨_, _, _, raised, rfl⟩ := first
  obtain ⟨token, reservations, completed, raisedAgain, rfl⟩ := second
  exact ⟨token, reservations, completed, raised.trans raisedAgain, rfl⟩

theorem acquire_only {op : OperationTuple} {slot : Reservation}
    (acquired : acquire s op = .ok (slot, next)) :
    ∃ reservations, next = { s with reservations := reservations } := by
  rcases acquire_ok acquired with ⟨-, -, rfl⟩ | ⟨-, -, rfl⟩
  · exact ⟨next.reservations, rfl⟩
  · exact ⟨_, rfl⟩

theorem le_raise (s : AgentState) (token : Nat) :
    s.maxLeaderToken ≤ (s.raise token).maxLeaderToken := by
  rw [raise_maxLeaderToken]
  exact le_max_left _ _

namespace Agent

variable {s next : AgentState} {op : OperationTuple}

theorem reserve_only {ack : PlaneAck}
    (reserved : reserve op s = .ok (ack, next)) : ReserveOnly s next := by
  obtain ⟨newest, -, cases⟩ := reserve_ok reserved
  rcases cases with ⟨-, rfl⟩ | ⟨-, -, slot, taken, acquired, rfl⟩
  · exact ⟨_, _, _, le_raise s op.leaderToken, rfl⟩
  · obtain ⟨reservations, rfl⟩ := acquire_only acquired
    exact ⟨_, _, _, le_raise s op.leaderToken, rfl⟩

theorem stage_only {ack : PlaneAck}
    (staged : stage op s = .ok (ack, next)) : ReserveOnly s next := by
  obtain ⟨newest, -, cases⟩ := stage_ok staged
  rcases cases with ⟨-, rfl⟩ | ⟨-, -, slot, taken, acquired, rfl⟩
  · exact ⟨_, _, _, le_raise s op.leaderToken, rfl⟩
  · obtain ⟨reservations, rfl⟩ := acquire_only acquired
    exact ⟨_, _, _, le_raise s op.leaderToken, rfl⟩

theorem reserves_only {tuples : List OperationTuple}
    {acks : List PlaneAck}
    (reserved : traverse reserve tuples s = .ok (acks, next)) : ReserveOnly s next :=
  traverse_preserves (ReserveOnly s)
    (fun _ _ _ _ _ before step => before.trans (reserve_only step))
    ⟨s.maxLeaderToken, s.reservations, s.completed, le_refl _, rfl⟩ reserved

/-- Finalizing changes the newest token, the slots and the ledger of finished
transitions. -/
theorem finalize_only {how : TerminalKind}
    (finalized : finalize s op how = .ok next) :
    ∃ token reservations terminal terminalAt,
      s.maxLeaderToken ≤ token ∧
        next = { s with
          maxLeaderToken := token
          reservations := reservations
          terminal := terminal
          terminalAt := terminalAt } := by
  obtain ⟨newest, cases⟩ := finalize_ok finalized
  rcases cases with ⟨-, rfl⟩ | ⟨-, rfl⟩
  · exact ⟨_, _, _, _, le_raise s op.leaderToken, rfl⟩
  · exact ⟨_, _, _, _, le_raise s op.leaderToken, rfl⟩

end Agent

/-- Where the tuple of a slot comes from: it was there, or it was claimed on the
coordinate its tuple expected. -/
inductive SlotOrigin (s : AgentState) (newest : Nat) (plane : Plane) (epoch : Nat)
    (op : OperationTuple) : Prop where
  | before (slot : Reservation) (found : s.slot plane epoch = some slot)
      (same : slot.op = op)
  | claimed (here : op.plane = plane) (at_ : op.target.activationEpoch = epoch)
      (expected : (s.planes.get plane).coordinate = op.expectedCurrent)
      (forward : (s.planes.get plane).activationEpoch < epoch)
      (lower : s.maxLeaderToken ≤ op.leaderToken) (upper : op.leaderToken ≤ newest)

/-- Every slot of a state has an origin in an earlier one. -/
def SlotsFrom (s next : AgentState) : Prop :=
  ∀ plane epoch slot, next.slot plane epoch = some slot →
    SlotOrigin s next.maxLeaderToken plane epoch slot.op

theorem SlotsFrom.of_subset (subset : ∀ plane epoch slot, next.slot plane epoch = some slot →
      s.slot plane epoch = some slot) : SlotsFrom s next :=
  fun plane epoch slot found => .before slot (subset plane epoch slot found) rfl

theorem SlotsFrom.refl (s : AgentState) : SlotsFrom s s :=
  .of_subset fun _ _ _ found => found

theorem SlotsFrom.trans {middle : AgentState} (first : SlotsFrom s middle)
    (planes : middle.planes = s.planes)
    (newest : s.maxLeaderToken ≤ middle.maxLeaderToken)
    (later : middle.maxLeaderToken ≤ next.maxLeaderToken)
    (second : SlotsFrom middle next) : SlotsFrom s next := by
  intro plane epoch slot found
  rcases second plane epoch slot found with
    ⟨old, oldFound, same⟩ | ⟨here, at_, expected, forward, lower, upper⟩
  · rcases first plane epoch old oldFound with
      ⟨older, olderFound, sameOld⟩ | ⟨here, at_, expected, forward, lower, upper⟩
    · exact .before older olderFound (sameOld.trans same)
    · rw [same] at here at_ expected lower upper
      exact .claimed here at_ expected forward lower (upper.trans later)
  · rw [planes] at expected forward
    exact .claimed here at_ expected forward (newest.trans lower) upper

theorem Freed.slotsFrom {owned : Plane → Nat → Prop}
    (freed : Freed s next owned) : SlotsFrom s next :=
  .of_subset fun _ _ _ found => (freed.slot_of_slot found).1

theorem acquire_slotsFrom {op : OperationTuple}
    {slot : Reservation} (newest : s.maxLeaderToken ≤ op.leaderToken)
    (acquired : acquire (s.raise op.leaderToken) op = .ok (slot, next)) :
    SlotsFrom s next ∧ next.slot op.plane op.target.activationEpoch = some slot ∧
      SlotOrigin s (s.raise op.leaderToken).maxLeaderToken op.plane
        op.target.activationEpoch slot.op := by
  rcases acquire_ok acquired with ⟨taken, -, rfl⟩ | ⟨claimable, rfl, rfl⟩
  · exact ⟨.of_subset fun _ _ _ found => found, taken, .before slot taken rfl⟩
  · have origin : SlotOrigin s (s.raise op.leaderToken).maxLeaderToken op.plane
        op.target.activationEpoch op :=
      .claimed rfl rfl claimable.expected claimable.forward newest
        (by simp)
    refine ⟨?_, by simp [AgentState.slot_setSlot], origin⟩
    intro plane epoch slot found
    rw [AgentState.slot_setSlot] at found
    split at found
    · rename_i here
      obtain ⟨rfl, rfl⟩ := here
      cases found
      exact origin
    · exact .before slot found rfl

namespace Agent

variable {s next : AgentState} {op : OperationTuple}

theorem reserve_slotsFrom {ack : PlaneAck}
    (reserved : reserve op s = .ok (ack, next)) : SlotsFrom s next := by
  obtain ⟨newest, -, cases⟩ := reserve_ok reserved
  rcases cases with ⟨-, rfl⟩ | ⟨-, -, slot, taken, acquired, rfl⟩
  · exact .of_subset fun _ _ _ found => found
  · exact (acquire_slotsFrom newest acquired).1

theorem stage_slotsFrom {ack : PlaneAck}
    (staged : stage op s = .ok (ack, next)) : SlotsFrom s next := by
  obtain ⟨newest, -, cases⟩ := stage_ok staged
  rcases cases with ⟨-, rfl⟩ | ⟨-, -, slot, taken, acquired, rfl⟩
  · exact .of_subset fun _ _ _ found => found
  · obtain ⟨from_, -, origin⟩ := acquire_slotsFrom newest acquired
    intro plane epoch other found
    change (taken.setSlot _ _ _).slot plane epoch = some other at found
    rw [AgentState.slot_setSlot] at found
    split at found
    · rename_i here
      obtain ⟨rfl, rfl⟩ := here
      cases found
      obtain ⟨reservations, rfl⟩ := acquire_only acquired
      exact origin
    · exact from_ plane epoch other found

theorem reserves_slotsFrom {tuples : List OperationTuple}
    {acks : List PlaneAck}
    (reserved : traverse reserve tuples s = .ok (acks, next)) : SlotsFrom s next := by
  have walked := traverse_preserves
    (fun current => ReserveOnly s current ∧ SlotsFrom s current) ?_
    ⟨⟨s.maxLeaderToken, s.reservations, s.completed, le_refl _, rfl⟩, .refl s⟩ reserved
  · exact walked.2
  · rintro op - current ack later ⟨only, from_⟩ step
    have stepOnly := reserve_only step
    refine ⟨only.trans stepOnly, ?_⟩
    obtain ⟨_, _, _, raised, rfl⟩ := only
    obtain ⟨_, _, _, raisedAgain, equation⟩ := stepOnly
    exact from_.trans rfl raised (by rw [equation]; exact raisedAgain)
      (reserve_slotsFrom step)

theorem finalize_slotsFrom {how : TerminalKind} (finalized : finalize s op how = .ok next) :
    SlotsFrom s next := by
  obtain ⟨-, cases⟩ := finalize_ok finalized
  rcases cases with ⟨-, rfl⟩ | ⟨-, rfl⟩
  · exact .of_subset fun _ _ _ found => found
  · have freed := freed_withoutOwnSlot (s.raise op.leaderToken) op
    exact .of_subset fun plane epoch slot found => (freed.slot_of_slot found).1

theorem openJournal_slot (op : ApplyOperation) (opening : Option JournalOpening)
    (s : AgentState) : (openJournal op opening s).reservations = s.reservations := by
  cases opening with
  | none => rfl
  | some first =>
      simp only [openJournal]
      split <;> rfl

end Agent

theorem sweepOrphan_only {op : ApplyOperation}
    {tuples : List OperationTuple} {opening : Option JournalOpening}
    (swept : Agent.sweepOrphan op tuples opening s = .ok next) :
    next.planes = s.planes ∧ next.activationEvidence = s.activationEvidence ∧
      next.maxLeaderToken = s.maxLeaderToken ∧ SlotsFrom s next := by
  rcases Agent.sweepOrphan_ok swept with ⟨-, rfl⟩ |
    ⟨stale, stamped, staleTuples, -, -, -, -, stamping, -, rfl⟩
  · exact ⟨rfl, rfl, rfl, .refl _⟩
  · obtain ⟨terminal, rfl⟩ := stamping.only
    refine ⟨rfl, rfl, rfl, ?_⟩
    exact .of_subset fun plane epoch slot found =>
      ((freed_releaseHeld { s with terminal := terminal } _ _ _).slot_of_slot found).1

variable {o : AgentOp} {reply : o.Reply}

theorem mutate_slotsFrom (mutated : o.mutate s = .ok (reply, next)) : SlotsFrom s next := by
  cases o with
  | fence leaderToken =>
      obtain ⟨-, -, cases⟩ := Agent.fence_ok mutated
      rcases cases with ⟨rfl, -⟩ | ⟨holder, -, -, rfl⟩
      · exact .of_subset fun _ _ _ found => found
      · exact .of_subset fun plane epoch slot found =>
          ((freed_releaseHeld _ _ _ _).slot_of_slot found).1
  | reserveAll op opening =>
      obtain ⟨tuples, swept, taken, -, -, -, -, sweeping, walked, rfl⟩ :=
        Agent.reserveAll_ok mutated
      obtain ⟨planes, -, newest, from_⟩ := sweepOrphan_only sweeping
      have reserving := Agent.reserves_slotsFrom walked
      obtain ⟨token, reservations, completed, raised, rfl⟩ := Agent.reserves_only walked
      have both := from_.trans planes newest.ge raised reserving
      intro plane epoch slot found
      have found : (reservations.get plane).get? epoch = some slot := by
        rw [AgentState.slot, Agent.openJournal_slot] at found
        exact found
      have upper : (Agent.openJournal op opening
          { swept with
            maxLeaderToken := token
            reservations := reservations
            completed := completed
            activeOperation := some (Agent.holderWith op tuples) }).maxLeaderToken =
          token := by
        cases opening with
        | none => rfl
        | some first =>
            simp only [Agent.openJournal]
            split <;> rfl
      rw [upper]
      exact both plane epoch slot found
  | reserve op => exact Agent.reserve_slotsFrom mutated
  | stage op => exact Agent.stage_slotsFrom mutated
  | commit op evidence =>
      obtain ⟨-, -, cases⟩ := Agent.commit_ok mutated
      rcases cases with ⟨-, rfl⟩ | ⟨-, -, -, rfl⟩ | ⟨-, -, -, -, rfl⟩
      · exact .of_subset fun _ _ _ found => found
      · exact .of_subset fun _ _ _ found => found
      · have freed := freed_withoutOwnSlot
          (Agent.place (s.raise op.leaderToken) op evidence) op
        exact .of_subset fun plane epoch slot found => (freed.slot_of_slot found).1
  | abort op => exact Agent.finalize_slotsFrom (Agent.abort_ok mutated)
  | release op =>
      obtain ⟨-, cases⟩ := Agent.release_ok mutated
      rcases cases with ⟨-, rfl⟩ | ⟨-, rfl⟩
      · exact .refl _
      · exact .of_subset fun plane epoch slot found =>
          ((freed_withoutOwnSlot s op).slot_of_slot found).1
  | fail op => exact Agent.finalize_slotsFrom (Agent.fail_ok mutated)
  | applyHealth op =>
      obtain ⟨-, -, cases⟩ := Agent.applyHealth_ok mutated
      rcases cases with ⟨-, rfl⟩ | ⟨-, -, -, rfl⟩
      · exact .of_subset fun _ _ _ found => found
      · exact .of_subset fun _ _ _ found => found
  | recordPublishIntent record =>
      obtain ⟨-, rfl⟩ := Agent.recordPublishIntent_ok mutated
      exact .of_subset fun _ _ _ found => found
  | releaseHolderSlots op =>
      rcases Agent.releaseHolderSlots_ok mutated with ⟨-, rfl⟩ | ⟨holder, -, -, rfl⟩
      · exact .refl _
      · exact .of_subset fun plane epoch slot found =>
          ((freed_releaseHeld s _ _ _).slot_of_slot found).1
  | releaseStaleSlots op =>
      rcases Agent.releaseStaleSlots_ok mutated with ⟨-, rfl⟩ | ⟨-, rfl⟩
      · exact .refl _
      · exact (freed_releaseHeld s _ _ _).slotsFrom
  | closeJournal op how =>
      rcases Agent.closeJournal_ok mutated with rfl | ⟨entry, phase, -, -, -, -, rfl⟩
      · exact .refl _
      · exact .of_subset fun _ _ _ found => found
  | releaseIdleHolder =>
      rcases Agent.releaseIdleHolder_ok mutated with rfl | ⟨holder, -, -, rfl⟩
      · exact .refl _
      · exact .of_subset fun plane epoch slot found =>
          ((freed_dropSlots s holder.epochs holder.planes).slot_of_slot found).1
  | reclaimOperation op =>
      rcases Agent.reclaimOperation_ok mutated with ⟨-, rfl⟩ | ⟨-, -, rfl⟩
      · exact .refl _
      · exact .of_subset fun _ _ _ found => found
  | finishOperation op releasePlanes =>
      obtain ⟨freed, freeing, rfl⟩ := Agent.finishOperation_ok mutated
      exact .of_subset fun plane epoch slot found => (freeing.slot_of_slot found).1
  | writeJournal entry =>
      obtain ⟨-, -, -, rfl⟩ := Agent.writeJournal_ok mutated
      exact .of_subset fun _ _ _ found => found

/-- A coordinate stays, is entered by a commit, or is revised inside its
epoch. -/
inductive PlaneChange (s : AgentState) (o : AgentOp) (next : AgentState)
    (plane : Plane) : Prop where
  | kept (same : next.planes.get plane = s.planes.get plane)
  | entered (op : OperationTuple) (evidence : ActivationEvidence) (slot : Reservation)
      (committed : o = .commit op evidence) (here : op.plane = plane)
      (moves : Agent.Moves s op evidence slot)
      (placed : next.planes.get plane = op.placed)
  | revised (op : OperationTuple)
      (applied : o = .applyHealth op) (here : op.plane = plane)
      (revises : Agent.Revises s op)
      (changed : next.planes.get plane = Agent.revised s op)

/-- The parts of the state that only commits and health touch. -/
structure SameGround (s next : AgentState) : Prop where
  planes : next.planes = s.planes
  activationEvidence : next.activationEvidence = s.activationEvidence
  newest : s.maxLeaderToken ≤ next.maxLeaderToken

theorem SameGround.refl (s : AgentState) : SameGround s s :=
  { planes := rfl
    activationEvidence := rfl
    newest := le_refl _ }

/-- An operation that keeps the books writes no plane, no answer and no verdict. -/
def AgentOp.clerical : AgentOp → Bool
  | .fence _ | .recordPublishIntent _ | .releaseHolderSlots _ | .releaseStaleSlots _
  | .closeJournal _ _ | .releaseIdleHolder | .reclaimOperation _ | .finishOperation _ _
  | .writeJournal _ => true
  | _ => false

structure BooksKept (o : AgentOp) (s next : AgentState) : Prop where
  planes : next.planes = s.planes
  completed : next.completed = s.completed
  terminal : next.terminal = s.terminal
  terminalAt : next.terminalAt = s.terminalAt
  activationEvidence : next.activationEvidence = s.activationEvidence
  newest : s.maxLeaderToken ≤ next.maxLeaderToken
  intent : next.lastPublishIntent = s.lastPublishIntent ∨ ∃ record, o = .recordPublishIntent record

theorem mutate_clerical (mutated : o.mutate s = .ok (reply, next)) (clerical : o.clerical = true) :
    BooksKept o s next := by
  cases o with
  | fence leaderToken =>
      obtain ⟨newest, -, ⟨rfl, -⟩ | ⟨holder, -, -, rfl⟩⟩ := Agent.fence_ok mutated
      · exact ⟨rfl, rfl, rfl, rfl, rfl, newest, .inl rfl⟩
      · exact ⟨rfl, rfl, rfl, rfl, rfl, newest, .inl rfl⟩
  | recordPublishIntent record =>
      obtain ⟨-, rfl⟩ := Agent.recordPublishIntent_ok mutated
      exact ⟨rfl, rfl, rfl, rfl, rfl, le_refl _, .inr ⟨record, rfl⟩⟩
  | releaseHolderSlots op =>
      obtain ⟨-, rfl⟩ | ⟨holder, -, -, rfl⟩ := Agent.releaseHolderSlots_ok mutated
      · exact ⟨rfl, rfl, rfl, rfl, rfl, le_refl _, .inl rfl⟩
      · exact ⟨rfl, rfl, rfl, rfl, rfl, le_refl _, .inl rfl⟩
  | releaseStaleSlots op =>
      obtain ⟨-, rfl⟩ | ⟨-, rfl⟩ := Agent.releaseStaleSlots_ok mutated
      · exact ⟨rfl, rfl, rfl, rfl, rfl, le_refl _, .inl rfl⟩
      · exact ⟨rfl, rfl, rfl, rfl, rfl, le_refl _, .inl rfl⟩
  | closeJournal op how =>
      obtain rfl | ⟨entry, phase, -, -, -, -, rfl⟩ := Agent.closeJournal_ok mutated
      · exact ⟨rfl, rfl, rfl, rfl, rfl, le_refl _, .inl rfl⟩
      · exact ⟨rfl, rfl, rfl, rfl, rfl, le_refl _, .inl rfl⟩
  | releaseIdleHolder =>
      obtain rfl | ⟨holder, -, -, rfl⟩ := Agent.releaseIdleHolder_ok mutated
      · exact ⟨rfl, rfl, rfl, rfl, rfl, le_refl _, .inl rfl⟩
      · exact ⟨rfl, rfl, rfl, rfl, rfl, le_refl _, .inl rfl⟩
  | reclaimOperation op =>
      obtain ⟨-, rfl⟩ | ⟨-, -, rfl⟩ := Agent.reclaimOperation_ok mutated
      · exact ⟨rfl, rfl, rfl, rfl, rfl, le_refl _, .inl rfl⟩
      · exact ⟨rfl, rfl, rfl, rfl, rfl, le_refl _, .inl rfl⟩
  | finishOperation op releasePlanes =>
      obtain ⟨freed, freeing, rfl⟩ := Agent.finishOperation_ok mutated
      obtain ⟨reservations, rfl⟩ := freeing.only
      exact ⟨rfl, rfl, rfl, rfl, rfl, le_refl _, .inl rfl⟩
  | writeJournal entry =>
      obtain ⟨-, -, -, rfl⟩ := Agent.writeJournal_ok mutated
      exact ⟨rfl, rfl, rfl, rfl, rfl, le_refl _, .inl rfl⟩
  | _ => cases clerical

/-- Every operation other than a moving commit and a fresh health delta leaves
the coordinates and their evidence alone; no operation lowers the newest
token. -/
theorem mutate_ground (mutated : o.mutate s = .ok (reply, next)) :
    SameGround s next ∨
      (∃ op evidence slot, o = .commit op evidence ∧ Agent.Moves s op evidence slot ∧
        s.maxLeaderToken ≤ op.leaderToken ∧ next = Agent.moved s op evidence) ∨
      (∃ op, o = .applyHealth op ∧ Agent.Revises s op ∧
        s.maxLeaderToken ≤ op.leaderToken ∧
        next = record
          { s.raise op.leaderToken with
            planes := s.planes.set op.plane (Agent.revised s op) }
          op .health (Agent.revised s op)) := by
  cases o with
  | reserveAll op opening =>
      obtain ⟨tuples, swept, taken, -, -, -, -, sweeping, walked, rfl⟩ :=
        Agent.reserveAll_ok mutated
      obtain ⟨token, reservations, completed, newest, rfl⟩ := Agent.reserves_only walked
      have opened : ∀ held : AgentState, SameGround held (Agent.openJournal op opening held) := by
        intro held
        cases opening with
        | none => exact .refl held
        | some first =>
            simp only [Agent.openJournal]
            split
            · exact .refl held
            · exact ⟨rfl, rfl, le_refl _⟩
      have ground := opened
        { swept with
          maxLeaderToken := token
          reservations := reservations
          completed := completed
          activeOperation := some (Agent.holderWith op tuples) }
      rcases Agent.sweepOrphan_ok sweeping with ⟨-, rfl⟩ |
        ⟨stale, stamped, staleTuples, -, -, -, -, stamping, -, rfl⟩
      · exact .inl ⟨ground.planes, ground.activationEvidence, newest.trans ground.newest⟩
      · obtain ⟨terminal, rfl⟩ := stamping.only
        exact .inl ⟨ground.planes, ground.activationEvidence, newest.trans ground.newest⟩
  | reserve op =>
      obtain ⟨token, reservations, completed, newest, rfl⟩ := Agent.reserve_only mutated
      exact .inl ⟨rfl, rfl, newest⟩
  | stage op =>
      obtain ⟨token, reservations, completed, newest, rfl⟩ := Agent.stage_only mutated
      exact .inl ⟨rfl, rfl, newest⟩
  | commit op evidence =>
      obtain ⟨newest, -, cases⟩ := Agent.commit_ok mutated
      rcases cases with ⟨-, rfl⟩ | ⟨-, -, -, rfl⟩ | ⟨-, -, ⟨slot, moves⟩, -, rfl⟩
      · exact .inl ⟨rfl, rfl, le_raise s op.leaderToken⟩
      · exact .inl ⟨rfl, rfl, le_raise s op.leaderToken⟩
      · exact .inr (.inl ⟨op, evidence, slot, rfl, moves, newest, rfl⟩)
  | abort op =>
      obtain ⟨token, reservations, terminal, terminalAt, newest, rfl⟩ :=
        Agent.finalize_only (Agent.abort_ok mutated)
      exact .inl ⟨rfl, rfl, newest⟩
  | release op =>
      obtain ⟨-, cases⟩ := Agent.release_ok mutated
      rcases cases with ⟨-, rfl⟩ | ⟨-, rfl⟩
      · exact .inl (.refl _)
      · exact .inl ⟨rfl, rfl, le_refl _⟩
  | fail op =>
      obtain ⟨token, reservations, terminal, terminalAt, newest, rfl⟩ :=
        Agent.finalize_only (Agent.fail_ok mutated)
      exact .inl ⟨rfl, rfl, newest⟩
  | applyHealth op =>
      obtain ⟨newest, -, cases⟩ := Agent.applyHealth_ok mutated
      rcases cases with ⟨-, rfl⟩ | ⟨-, revises, -, rfl⟩
      · exact .inl ⟨rfl, rfl, le_raise s op.leaderToken⟩
      · exact .inr (.inr ⟨op, rfl, revises, newest, rfl⟩)
  | _ =>
      have kept := mutate_clerical mutated rfl
      exact .inl ⟨kept.planes, kept.activationEvidence, kept.newest⟩

@[simp] theorem prune_planes (s : AgentState) : (prune s).planes = s.planes := rfl

@[simp] theorem prune_maxLeaderToken (s : AgentState) :
    (prune s).maxLeaderToken = s.maxLeaderToken := rfl

@[simp] theorem prune_reservations (s : AgentState) :
    (prune s).reservations = s.reservations := rfl

@[simp] theorem prune_slot (s : AgentState) (plane : Plane) (epoch : Nat) :
    (prune s).slot plane epoch = s.slot plane epoch := rfl

theorem prune_standingEvidence {plane : Plane} {epoch : Nat}
    (standing : (s.planes.get plane).activationEpoch = epoch) :
    (prune s).activationEvidence.get? (evidenceKey plane epoch) =
      s.activationEvidence.get? (evidenceKey plane epoch) := by
  have kept : ∀ drop : List String,
      drop.Sublist ((s.activationEvidence.keys).filter
        fun name => !(standingKeys s).contains name) →
      drop.contains (evidenceKey plane epoch) = false := by
    intro drop sublist
    have isStanding : evidenceKey plane epoch ∈ standingKeys s := by
      rw [standingKeys]
      exact List.mem_map.mpr ⟨plane, Plane.mem_all plane, by rw [standing]⟩
    rw [List.contains_eq_mem, decide_eq_false_iff_not]
    intro member
    have filtered := (List.mem_filter.mp (sublist.subset member)).2
    simp [isStanding] at filtered
  change ((pruneEvidence s).activationEvidence).get? _ = _
  simp only [pruneEvidence, OrderedMap.get?_without]
  rw [kept _ (List.take_sublist _ _)]
  simp

theorem mutate_newest (mutated : o.mutate s = .ok (reply, next)) :
    s.maxLeaderToken ≤ next.maxLeaderToken := by
  rcases mutate_ground mutated with ground | ⟨op, evidence, slot, -, -, newest, rfl⟩ |
    ⟨op, -, -, newest, rfl⟩
  · exact ground.newest
  · exact le_raise s op.leaderToken
  · exact le_raise s op.leaderToken

theorem serial_newest (succeeded : serial o s = .ok (reply, next)) :
    s.maxLeaderToken ≤ next.maxLeaderToken := by
  obtain ⟨changed, mutated, rfl, -⟩ := serial_ok succeeded
  rw [prune_maxLeaderToken]
  exact mutate_newest mutated

theorem serial_planes (succeeded : serial o s = .ok (reply, next)) (plane : Plane) :
    PlaneChange s o next plane := by
  obtain ⟨changed, mutated, rfl, -⟩ := serial_ok succeeded
  rcases mutate_ground mutated with ground | ⟨op, evidence, slot, rfl, moves, -, rfl⟩ |
    ⟨op, rfl, revises, -, rfl⟩
  · exact .kept (by rw [prune_planes, ground.planes])
  · have planes : (prune (Agent.moved s op evidence)).planes =
        s.planes.set op.plane op.placed := rfl
    by_cases here : op.plane = plane
    · exact .entered op evidence slot rfl here moves (by rw [planes, here]; simp)
    · exact .kept (by rw [planes, PerPlane.get_set_other _ _ here])
  · by_cases here : op.plane = plane
    · refine .revised op rfl here revises ?_
      rw [prune_planes]
      simp [record, here]
    · refine .kept ?_
      rw [prune_planes]
      simp [record, PerPlane.get_set_other _ _ here]

end Barycenter.Dp
