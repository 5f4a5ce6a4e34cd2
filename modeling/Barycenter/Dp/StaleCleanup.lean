import Barycenter.Dp.AgentRecords
import Barycenter.Dp.AgentRuns

/-!
# Cleaning up after a change of leader

The same operation may run again under a newer token while the runner of the
older one is still between two durable writes.  What the older one cleans up is
chosen by identity, token included, so nothing of the successor is given back.
The one exception is by design: a candidate is closed by name, and whoever
closes it gets the same answer out of the coordinates.
-/

namespace Barycenter.Dp

open Outcome

/-- The operation cleans up for exactly this identity. -/
def CleansUpFor (who : Identity) : AgentOp → Prop
  | .finishOperation op _ | .releaseHolderSlots op | .releaseStaleSlots op
  | .closeJournal op _ => op.identity = who
  | .abort op => op.identity = who
  | _ => False

/-- The journal, the right and the slots of an identity are as they were. -/
structure RunSpared (who : Identity) (s next : AgentState) : Prop where
  journal : ∀ entry, entry.op.identity = who →
    (next.journal = some entry ↔ s.journal = some entry)
  right : ∀ holder : ActiveOperation, holder.identity = who →
    (next.activeOperation = some holder ↔ s.activeOperation = some holder)
  slots : ∀ plane epoch (slot : Reservation), slot.op.identity = who →
    (next.slot plane epoch = some slot ↔ s.slot plane epoch = some slot)

/-- The candidate, what completes it, and the baseline. -/
structure SameBaseline (s next : AgentState) : Prop where
  candidate : next.pendingActivation = s.pendingActivation
  epochs : next.pendingEpochs = s.pendingEpochs
  baseline : next.lastActivated = s.lastActivated

variable {s next : AgentState} {who : Identity}

theorem RunSpared.of_same (journal : next.journal = s.journal)
    (right : next.activeOperation = s.activeOperation)
    (slots : next.reservations = s.reservations) : RunSpared who s next :=
  { journal := fun _ _ => by rw [journal]
    right := fun _ _ => by rw [right]
    slots := fun _ _ _ _ => by rw [AgentState.slot, slots, AgentState.slot] }

theorem RunSpared.refl (who : Identity) (s : AgentState) : RunSpared who s s :=
  .of_same rfl rfl rfl

theorem canonical_leaderToken {left right : OperationTuple}
    (same : canonical left = canonical right) : left.leaderToken = right.leaderToken := by
  have texts := congrArg String.toList same
  rw [canonical_layout, canonical_layout] at texts
  have free : ∀ number : Nat, '|' ∉ (toString number).toList :=
    DelimitedText.separator_notMem_numeral (by decide)
  exact DelimitedText.numeral_injective
    (DelimitedText.split_at_separator (free _) (free _) texts).1

theorem Freed.spares {owned : Plane → Nat → Prop}
    (freed : Freed s next owned)
    (others : ∀ plane epoch (slot : Reservation), owned plane epoch →
      s.slot plane epoch = some slot → slot.op.identity ≠ who)
    (plane : Plane) (epoch : Nat) (slot : Reservation) (mine : slot.op.identity = who) :
    next.slot plane epoch = some slot ↔ s.slot plane epoch = some slot := by
  constructor
  · intro left
    exact (freed.slot_of_slot left).1
  · intro found
    rw [freed.kept plane epoch fun given => others plane epoch slot given found mine]
    exact found

variable {successor stale : Identity}

theorem releaseHeld_spares
    (different : stale ≠ successor) (epochs : PerPlane (Option Nat)) (planes : List Plane)
    (plane : Plane) (epoch : Nat) (slot : Reservation)
    (mine : slot.op.identity = successor) :
    (releaseHeld s stale epochs planes).slot plane epoch = some slot ↔
      s.slot plane epoch = some slot := by
  refine (freed_releaseHeld s stale epochs planes).spares ?_ plane epoch slot mine
  rintro other otherEpoch taken ⟨-, -, owned⟩ found
  rw [found] at owned
  rw [ownsSlotOp_some.mp owned]
  exact different

theorem ownSlot_not_successor {op : OperationTuple}
    (older : op.leaderToken < successor.leaderToken)
    (owned : ownsSlot s op = true) {slot : Reservation}
    (found : s.slot op.plane op.target.activationEpoch = some slot) :
    slot.op.identity ≠ successor := by
  obtain ⟨taken, takenFound, same⟩ := ownsSlot_iff.mp owned
  obtain rfl : slot = taken := Option.some.inj (found.symm.trans takenFound)
  rintro rfl
  have token : slot.op.leaderToken = op.leaderToken := canonical_leaderToken same
  exact absurd older (by simp [OperationTuple.identity, token])

variable {reply : Unit}

theorem abort_spares {op : OperationTuple}
    (older : op.leaderToken < successor.leaderToken)
    (aborted : Agent.abort op s = .ok (reply, next)) :
    RunSpared successor s next ∧ SameBaseline s next := by
  obtain ⟨-, cases⟩ := Agent.finalize_ok (Agent.abort_ok aborted)
  rcases cases with ⟨-, rfl⟩ | ⟨-, rfl⟩
  · exact ⟨.of_same rfl rfl rfl, ⟨rfl, rfl, rfl⟩⟩
  · refine ⟨{ RunSpared.refl successor s with slots := ?_ }, ⟨rfl, rfl, rfl⟩⟩
    refine (freed_withoutOwnSlot s op).spares ?_
    rintro plane epoch slot ⟨rfl, rfl, owned⟩ found
    exact ownSlot_not_successor older owned found

variable {op : ApplyOperation}

theorem releaseHolderSlots_spares (different : op.identity ≠ successor)
    (released : Agent.releaseHolderSlots op s = .ok (reply, next)) :
    RunSpared successor s next ∧ SameBaseline s next := by
  rcases Agent.releaseHolderSlots_ok released with ⟨-, rfl⟩ | ⟨holder, held, same, rfl⟩
  · exact ⟨.refl successor _, ⟨rfl, rfl, rfl⟩⟩
  · refine ⟨{ RunSpared.refl successor s with right := ?_, slots := ?_ }, ⟨rfl, rfl, rfl⟩⟩
    · intro other mine
      rw [held]
      constructor
      · rintro ⟨⟩
      · intro equal
        cases equal
        exact absurd (same.symm.trans mine) different
    · exact releaseHeld_spares different holder.epochs holder.planes

theorem releaseStaleSlots_spares (different : op.identity ≠ successor)
    (released : Agent.releaseStaleSlots op s = .ok (reply, next)) :
    RunSpared successor s next ∧ SameBaseline s next := by
  rcases Agent.releaseStaleSlots_ok released with ⟨-, rfl⟩ | ⟨-, rfl⟩
  · exact ⟨.refl successor _, ⟨rfl, rfl, rfl⟩⟩
  · refine ⟨{ RunSpared.refl successor s with slots := ?_ }, ⟨rfl, rfl, rfl⟩⟩
    exact releaseHeld_spares different (epochsOf op) (planesOfOperation op)

theorem closeJournal_spares {how : Option ApplyPhase} (different : op.identity ≠ successor)
    (closed : Agent.closeJournal op how s = .ok (reply, next)) :
    RunSpared successor s next ∧ SameBaseline s next := by
  rcases Agent.closeJournal_ok closed with rfl | ⟨entry, phase, open_, -, owned, -, rfl⟩
  · exact ⟨.refl successor _, ⟨rfl, rfl, rfl⟩⟩
  · refine ⟨{ RunSpared.refl successor s with journal := ?_ }, ⟨rfl, rfl, rfl⟩⟩
    intro other mine
    rw [open_]
    constructor
    · intro equal
      cases equal
      exact absurd (owned.symm.trans mine) different
    · intro equal
      cases equal
      exact absurd (owned.symm.trans mine) different

theorem vacate_right (different : stale ≠ successor) (holder : ActiveOperation)
    (mine : holder.identity = successor) :
    (vacate s stale).activeOperation = some holder ↔ s.activeOperation = some holder := by
  have kept : holder.identity ≠ stale := fun same => different (same.symm.trans mine)
  simp [vacate, Option.filter_eq_some_iff, kept]

theorem finishOperation_spares {releasePlanes : List Plane}
    (older : op.identity.leaderToken < successor.leaderToken)
    (finished : Agent.finishOperation op releasePlanes s = .ok (reply, next)) :
    RunSpared successor s next ∧ SameBaseline (finalizeCandidate s op.identity) next := by
  obtain ⟨freed, freeing, rfl⟩ := Agent.finishOperation_ok finished
  have different : op.identity ≠ successor := by
    rintro rfl
    exact absurd older (Nat.lt_irrefl _)
  have slots : ∀ plane epoch (slot : Reservation), slot.op.identity = successor →
      (freed.slot plane epoch = some slot ↔ s.slot plane epoch = some slot) := by
    refine freeing.spares ?_
    rintro plane epoch slot ⟨-, tuple, extracted, rfl, owned⟩ found
    have samePlane := tupleFor_plane extracted
    rw [← samePlane] at found
    exact ownSlot_not_successor (tupleFor_leaderToken extracted ▸ older) owned found
  obtain ⟨reservations, rfl⟩ := freeing.only
  refine ⟨?_, ⟨rfl, rfl, rfl⟩⟩
  exact
    { journal := fun _ _ => Iff.rfl
      right := fun holder mine => vacate_right different holder mine
      slots := slots }

theorem finalizeCandidate_of_name {left right : Identity}
    (sameName : sameTransitionName left right = true) (s : AgentState) :
    finalizeCandidate s left = finalizeCandidate s right := by
  simp only [sameTransitionName, Bool.and_eq_true, decide_eq_true_eq] at sameName
  have named : ∀ who : Identity,
      sameTransitionName who left = sameTransitionName who right := by
    intro who
    simp [sameTransitionName, sameName.1, sameName.2]
  have candidate : candidateNamed s left = candidateNamed s right := by
    simp only [candidateNamed, named]
  have declared : epochsFromJournal s left = epochsFromJournal s right := by
    simp only [epochsFromJournal]
    split
    · rfl
    · rw [named]
  have baseline : ∀ record, settledBaseline s record left = settledBaseline s record right := by
    intro record
    simp only [settledBaseline, declared]
  simp only [finalizeCandidate, candidate, baseline]

theorem finalizeCandidate_of_other (other : ∀ candidate, s.pendingActivation = some candidate →
      sameTransitionName candidate.identity who = false) :
    finalizeCandidate s who = s := by
  have unnamed : candidateNamed s who = none := by
    rw [candidateNamed, Option.filter_eq_none_iff]
    intro candidate found
    simp [other candidate found]
  simp [finalizeCandidate, unnamed]

/-- What a cleanup under an older token leaves of the run of the same ids under
a newer one. -/
structure CleanupSpares (stale successor : Identity) (o : AgentOp)
    (s next : AgentState) : Prop where
  run : RunSpared successor s next
  others : (∀ op releasePlanes, o ≠ .finishOperation op releasePlanes) → SameBaseline s next
  foreign : (∀ candidate, s.pendingActivation = some candidate →
    sameTransitionName candidate.identity stale = false) → SameBaseline s next
  /-- Finishing closes the candidate of the name exactly as the successor would. -/
  named : ∀ op releasePlanes, o = .finishOperation op releasePlanes →
    SameBaseline (finalizeCandidate s successor) next

theorem SameBaseline.pruned {changed : AgentState} (same : SameBaseline s changed) :
    SameBaseline s (prune changed) :=
  { candidate := same.candidate
    epochs := same.epochs
    baseline := same.baseline }

theorem RunSpared.pruned {changed : AgentState}
    (spared : RunSpared who s changed) : RunSpared who s (prune changed) :=
  { journal := spared.journal
    right := spared.right
    slots := spared.slots }

theorem RunSpared.trans {middle : AgentState}
    (first : RunSpared who s middle) (second : RunSpared who middle next) :
    RunSpared who s next :=
  { journal := fun entry mine =>
      (second.journal entry mine).trans (first.journal entry mine)
    right := fun holder mine => (second.right holder mine).trans (first.right holder mine)
    slots := fun plane epoch slot mine =>
      (second.slots plane epoch slot mine).trans (first.slots plane epoch slot mine) }

theorem cleanup_spares_newer
    (older : stale.leaderToken < successor.leaderToken) {o : AgentOp} {reply : o.Reply}
    (cleanup : CleansUpFor stale o) (succeeded : serial o s = .ok (reply, next)) :
    RunSpared successor s next := by
  obtain ⟨changed, mutated, rfl, -⟩ := serial_ok succeeded
  have different : stale ≠ successor := by
    rintro rfl
    exact absurd older (Nat.lt_irrefl _)
  cases o with
  | abort op =>
      cases cleanup
      exact (abort_spares older mutated).1.pruned
  | releaseHolderSlots op =>
      cases cleanup
      exact (releaseHolderSlots_spares different mutated).1.pruned
  | releaseStaleSlots op =>
      cases cleanup
      exact (releaseStaleSlots_spares different mutated).1.pruned
  | closeJournal op how =>
      cases cleanup
      exact (closeJournal_spares different mutated).1.pruned
  | finishOperation op releasePlanes =>
      cases cleanup
      exact (finishOperation_spares older mutated).1.pruned
  | _ => exact cleanup.elim

/-- **Cleaning up under an older token spares the successor.** -/
theorem stale_cleanup_spares_successor {s next : AgentState} {stale successor : Identity}
    (sameName : sameTransitionName stale successor = true)
    (older : stale.leaderToken < successor.leaderToken) {o : AgentOp} {reply : o.Reply}
    (cleanup : CleansUpFor stale o) (succeeded : serial o s = .ok (reply, next)) :
    CleanupSpares stale successor o s next := by
  obtain ⟨changed, mutated, rfl, -⟩ := serial_ok succeeded
  have different : stale ≠ successor := by
    rintro rfl
    exact absurd older (Nat.lt_irrefl _)
  have run := cleanup_spares_newer older cleanup succeeded
  have quiet : (∀ op releasePlanes, o ≠ .finishOperation op releasePlanes) →
      SameBaseline s changed → CleanupSpares stale successor o s (prune changed) := by
    intro notFinish same
    exact
      { run := run
        others := fun _ => same.pruned
        foreign := fun _ => same.pruned
        named := fun op releasePlanes equal => absurd equal (notFinish op releasePlanes) }
  cases o with
  | abort op =>
      cases cleanup
      exact quiet (fun _ _ equal => nomatch equal) (abort_spares older mutated).2
  | releaseHolderSlots op =>
      cases cleanup
      exact quiet (fun _ _ equal => nomatch equal) (releaseHolderSlots_spares different mutated).2
  | releaseStaleSlots op =>
      cases cleanup
      exact quiet (fun _ _ equal => nomatch equal) (releaseStaleSlots_spares different mutated).2
  | closeJournal op how =>
      cases cleanup
      exact quiet (fun _ _ equal => nomatch equal) (closeJournal_spares different mutated).2
  | finishOperation op releasePlanes =>
      cases cleanup
      have settled := (finishOperation_spares older mutated).2
      refine
        { run := run
          others := fun notFinish => absurd rfl (notFinish op releasePlanes)
          foreign := ?_
          named := ?_ }
      · intro other
        rw [finalizeCandidate_of_other other] at settled
        exact settled.pruned
      · intro _ _ _
        rw [finalizeCandidate_of_name sameName] at settled
        exact settled.pruned
  | _ => exact cleanup.elim

def olderRun : Identity :=
  { operationId := "op", transitionId := "t", leaderToken := 10 }

def newerRun : Identity :=
  { operationId := "op", transitionId := "t", leaderToken := 11 }

/-- The older run reserves, the newer one takes over and moves one plane. -/
def overtaken : List AgentOp :=
  [.reserveAll (plainOperation olderRun 0 5) none,
    .fence (.ofNat 11),
    .reserveAll (plainOperation newerRun 0 5) none,
    .stage (plainTuple newerRun .http 0 5),
    .commit (plainTuple newerRun .http 0 5) (plainEvidence 5)]

/-- Finishing under the older token forgets the candidate of the newer run. -/
theorem stale_finish_drops_successor_candidate :
    ∃ history s, AgentRun history s ∧
      (∃ holder, s.activeOperation = some holder ∧ holder.identity = newerRun) ∧
      s.pendingActivation = some (plainTuple newerRun .http 0 5).candidate ∧
      ∃ next, serial (.finishOperation (plainOperation olderRun 0 5) []) s = .ok ((), next) ∧
        next.pendingActivation = none := by
  obtain ⟨history, s, run, -, checked⟩ := exists_run_of_performAll overtaken
    (fun _ s =>
      s.activeOperation.any (fun holder => holder.identity = newerRun)
        && s.pendingActivation = some (plainTuple newerRun .http 0 5).candidate
        && match serial (.finishOperation (plainOperation olderRun 0 5) []) s with
          | .ok (_, next) => next.pendingActivation.isNone
          | .error _ => false)
    (by decide +kernel)
  simp only [Bool.and_eq_true, decide_eq_true_eq] at checked
  obtain ⟨⟨held, pending⟩, finished⟩ := checked
  obtain ⟨holder, holds, mine⟩ := (Option.any_eq_true _ _).mp held
  refine ⟨history, s, run, ⟨holder, holds, of_decide_eq_true mine⟩, pending, ?_⟩
  split at finished
  · rename_i reply next performed
    exact ⟨next, performed, Option.isNone_iff_eq_none.mp finished⟩
  · cases finished

theorem stale_cleanup_spares_overtaking_run :
    ∃ history s next reply, AgentRun history s ∧
      serial (.releaseHolderSlots (plainOperation olderRun 0 5)) s = .ok (reply, next) ∧
      CleanupSpares olderRun newerRun (.releaseHolderSlots (plainOperation olderRun 0 5))
        s next := by
  obtain ⟨history, s, run, -, checked⟩ := exists_run_of_performAll overtaken
    (fun _ s => (serial (.releaseHolderSlots (plainOperation olderRun 0 5)) s).isOk)
    (by decide +kernel)
  cases performed : serial (.releaseHolderSlots (plainOperation olderRun 0 5)) s with
  | error thrown => simp [performed, Except.isOk, Except.toBool] at checked
  | ok result =>
      exact ⟨history, s, result.2, result.1, run, performed,
        stale_cleanup_spares_successor (by decide) (by decide) rfl performed⟩

end Barycenter.Dp
