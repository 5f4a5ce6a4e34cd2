import Barycenter.Dp.AgentFrames
import Barycenter.Dp.AgentRuns

/-!
# Who takes reservations away

Every operation is performed for one transition, or for the holder of the apply
path.  Three of its ways to give slots back do not ask exactly whose they are: a
comparison of canonical texts, a walk over the epochs that an idle holder
declared, and a takeover of the journal of a holder with the same name.
Everything else gives back its own slots only.
-/

namespace Barycenter.Dp

open Outcome

def AgentOp.actor (s : AgentState) : AgentOp → Option Identity
  | .fence _ => none
  | .reserve op | .stage op | .commit op _ | .abort op | .release op | .fail op
  | .applyHealth op => some op.identity
  | .reserveAll op _ | .releaseHolderSlots op | .releaseStaleSlots op | .closeJournal op _
  | .reclaimOperation op | .finishOperation op _ => some op.identity
  | .recordPublishIntent record => some record.identity
  | .writeJournal entry => some entry.op.identity
  | .releaseIdleHolder => s.activeOperation.map ActiveOperation.identity

/-- A fence of a higher token, or the takeover of the journal of this very owner,
which does not hold the path. -/
inductive MayTake (s : AgentState) (owner : Identity) : AgentOp → Prop where
  | fence {token : Numeral} (higher : owner.leaderToken < normalizeNumeric token) :
      MayTake s owner (.fence token)
  | takeover {op : ApplyOperation} {opening : JournalOpening} {stale : JournalEntry}
      (journal : s.journal = some stale) (orphan : stale.op.identity = owner)
      (unfinished : isTerminalPhase stale.phase = false)
      (idle : ∀ holder, s.activeOperation = some holder → holder.identity ≠ owner) :
      MayTake s owner (.reserveAll op (some opening))

/-- The reservations of other transitions stay as they are. -/
def OwnershipKept (s : AgentState) (o : AgentOp) (next : AgentState) : Prop :=
  ∀ plane epoch slot, s.slot plane epoch = some slot → o.actor s ≠ some slot.op.identity →
    next.slot plane epoch = some slot ∨ MayTake s slot.op.identity o

/-- A slot that reads like the request is one of the request's own transition. -/
def OwnPlace (s : AgentState) (op : OperationTuple) : Prop :=
  ∀ slot, s.slot op.plane op.target.activationEpoch = some slot →
    canonical slot.op = canonical op → slot.op.identity = op.identity

/-- The slots that an idle holder declared are still its own. -/
def IdleHolderOwns (s : AgentState) : Prop :=
  ∀ holder, s.journal = none → s.activeOperation = some holder →
    ∀ plane ∈ holder.planes, ∀ epoch, holder.epochs.get plane = some epoch →
      ∀ slot, s.slot plane epoch = some slot → slot.op.identity = holder.identity

/-- The journal that is taken over is not the holder's, or the holder has no slot left. -/
def JournalIsOrphan (s : AgentState) (op : ApplyOperation) : Prop :=
  ∀ stale holder, s.journal = some stale → stale.op.identity ≠ op.identity →
    isTerminalPhase stale.phase = false → s.activeOperation = some holder →
    holder.identity = stale.op.identity →
    ∀ plane ∈ planesOf stale.op, ∀ epoch, (epochsOf stale.op).get plane = some epoch →
      ∀ slot, s.slot plane epoch = some slot → slot.op.identity ≠ stale.op.identity

/-- Where an operation takes slots away, they are its own. -/
def Tidy (s : AgentState) : AgentOp → Prop
  | .stage op => s.completed.get? (key op .stage) = none →
      ∀ slot, s.slot op.plane op.target.activationEpoch = some slot →
        canonical slot.op = canonical op →
          slot.op.identity = op.identity ∨ slot.stagedDigest = some op.payloadDigest
  | .commit op _ => s.completed.get? (key op .commit) = none →
      Agent.alreadyThere s op = false → OwnPlace s op
  | .abort op | .fail op | .release op =>
      terminalOf s op.identity op.plane = none → OwnPlace s op
  | .finishOperation op planes =>
      ∀ plane ∈ planes, ∀ tuple, tupleFor op plane = .ok tuple → OwnPlace s tuple
  | .releaseIdleHolder => IdleHolderOwns s
  | .reserveAll op opening => opening.isSome = true → JournalIsOrphan s op
  | _ => True

section Steps

variable {s next : AgentState} {o : AgentOp} {owned : Plane → Nat → Prop}

theorem kept_of_slots
    (kept : ∀ plane epoch slot, s.slot plane epoch = some slot →
      next.slot plane epoch = some slot) : OwnershipKept s o next :=
  fun plane epoch slot found _ => .inl (kept plane epoch slot found)

theorem kept_of_same
    (same : ∀ plane epoch, next.slot plane epoch = s.slot plane epoch) :
    OwnershipKept s o next :=
  kept_of_slots fun plane epoch _ found => (same plane epoch).trans found

/-- Slots that are given back are taken from other transitions, unless they belong
to this one or may be taken. -/
theorem kept_iff_of_freed
    (kept : ∀ plane epoch, ¬ owned plane epoch → next.slot plane epoch = s.slot plane epoch)
    (gone : ∀ plane epoch, owned plane epoch → next.slot plane epoch = none) :
    OwnershipKept s o next ↔
      ∀ plane epoch slot, s.slot plane epoch = some slot → owned plane epoch →
        o.actor s ≠ some slot.op.identity → MayTake s slot.op.identity o := by
  constructor
  · intro holds plane epoch slot found own foreign
    rcases holds plane epoch slot found foreign with stays | taken
    · rw [gone plane epoch own] at stays
      cases stays
    · exact taken
  · intro takes plane epoch slot found foreign
    by_cases own : owned plane epoch
    · exact .inr (takes plane epoch slot found own foreign)
    · exact .inl ((kept plane epoch own).trans found)

variable {op : OperationTuple}

theorem kept_iff_ownPlace (actor : o.actor s = some op.identity)
    (never : ∀ owner, ¬ MayTake s owner o)
    (slots : ∀ plane epoch, next.slot plane epoch = (withoutOwnSlot s op).slot plane epoch) :
    OwnershipKept s o next ↔ OwnPlace s op := by
  have freed := freed_withoutOwnSlot s op
  rw [kept_iff_of_freed
    (fun plane epoch other => (slots plane epoch).trans (freed.kept plane epoch other))
    (fun plane epoch own => (slots plane epoch).trans (freed.gone plane epoch own))]
  constructor
  · intro takes slot found same
    by_contra foreign
    refine never _ (takes _ _ slot found
      ⟨rfl, rfl, ownsSlot_iff.mpr ⟨slot, found, same⟩⟩ ?_)
    rw [actor]
    exact fun equal => foreign (Option.some.inj equal).symm
  · rintro own plane epoch slot found ⟨rfl, rfl, owns⟩ foreign
    obtain ⟨other, taken, same⟩ := ownsSlot_iff.mp owns
    cases found.symm.trans taken
    rw [actor, own slot found same] at foreign
    exact absurd rfl foreign

theorem finalize_ownership {how : TerminalKind}
    (actor : o.actor s = some op.identity) (never : ∀ owner, ¬ MayTake s owner o)
    (finalized : finalize s op how = .ok next) :
    OwnershipKept s o next ↔ (terminalOf s op.identity op.plane = none → OwnPlace s op) := by
  obtain ⟨-, cases⟩ := Agent.finalize_ok finalized
  rcases cases with ⟨ended, rfl⟩ | ⟨open_, rfl⟩
  · refine iff_of_true (kept_of_same fun _ _ => rfl) fun open_ => ?_
    rw [ended] at open_
    cases open_
  · have place := @kept_iff_ownPlace s (finish (s.raise op.leaderToken) op how) o op actor never
      fun _ _ => rfl
    rw [place]
    exact ⟨fun own _ => own, fun own => own open_⟩

variable {ack : PlaneAck}

theorem reserve_keeps {plane : Plane} {epoch : Nat}
    {slot : Reservation} (reserved : Agent.reserve op s = .ok (ack, next))
    (found : s.slot plane epoch = some slot) : next.slot plane epoch = some slot := by
  obtain ⟨-, -, cases⟩ := Agent.reserve_ok reserved
  rcases cases with ⟨-, rfl⟩ | ⟨-, -, acquired, taken, acquiring, rfl⟩
  · exact found
  · rcases acquire_ok acquiring with ⟨-, -, rfl⟩ | ⟨claimable, -, rfl⟩
    · exact found
    · change (AgentState.setSlot _ _ _ _).slot plane epoch = some slot
      rw [AgentState.slot_setSlot, if_neg]
      · exact found
      · rintro ⟨rfl, rfl⟩
        have empty : s.slot op.plane op.target.activationEpoch = none := claimable.empty
        rw [empty] at found
        cases found

theorem reserve_adds {plane : Plane} {epoch : Nat}
    {slot : Reservation} (reserved : Agent.reserve op s = .ok (ack, next))
    (found : next.slot plane epoch = some slot) :
    s.slot plane epoch = some slot ∨ slot.op = op := by
  obtain ⟨-, -, cases⟩ := Agent.reserve_ok reserved
  rcases cases with ⟨-, rfl⟩ | ⟨-, -, acquired, taken, acquiring, rfl⟩
  · exact .inl found
  · rcases acquire_ok acquiring with ⟨-, -, rfl⟩ | ⟨-, rfl, rfl⟩
    · exact .inl found
    · change (AgentState.setSlot _ _ _ _).slot plane epoch = some slot at found
      rw [AgentState.slot_setSlot] at found
      split at found
      · exact .inr (congrArg Reservation.op (Option.some.inj found)).symm
      · exact .inl found

theorem stage_ownership (staged : Agent.stage op s = .ok (ack, next)) :
    OwnershipKept s (.stage op) next ↔ Tidy s (.stage op) := by
  obtain ⟨-, -, cases⟩ := Agent.stage_ok staged
  rcases cases with ⟨⟨seen, cached, -⟩, rfl⟩ | ⟨fresh, -, slot, taken, acquiring, rfl⟩
  · refine iff_of_true (kept_of_same fun _ _ => rfl) fun unanswered => ?_
    rw [cached] at unanswered
    cases unanswered
  · have slots : ∀ plane epoch, (record (taken.setSlot op.plane op.target.activationEpoch
        { slot with stagedDigest := some op.payloadDigest }) op .stage op.reached).slot plane
          epoch = if op.plane = plane ∧ op.target.activationEpoch = epoch then
            some { slot with stagedDigest := some op.payloadDigest }
          else taken.slot plane epoch :=
      fun plane epoch => AgentState.slot_setSlot _ _ _ _ _ _
    rcases acquire_ok acquiring with ⟨present, same, rfl⟩ | ⟨claimable, rfl, rfl⟩
    · have present : s.slot op.plane op.target.activationEpoch = some slot := present
      constructor
      · intro kept _ other found _
        cases present.symm.trans found
        by_cases own : slot.op.identity = op.identity
        · exact .inl own
        · have foreign : AgentOp.actor s (.stage op) ≠ some slot.op.identity :=
            fun equal => own (Option.some.inj equal).symm
          rcases kept _ _ slot present foreign with stays | taken
          · rw [slots, if_pos ⟨rfl, rfl⟩] at stays
            exact .inr (congrArg Reservation.stagedDigest (Option.some.inj stays)).symm
          · cases taken
      · intro tidy plane epoch other found foreign
        refine .inl ?_
        rw [slots]
        split
        · next here =>
            obtain ⟨rfl, rfl⟩ := here
            cases present.symm.trans found
            rcases tidy fresh.1 slot present same with own | staged
            · exact absurd (congrArg some own.symm) foreign
            · rw [← staged]
        · exact found
    · have empty : s.slot op.plane op.target.activationEpoch = none := claimable.empty
      refine iff_of_true (kept_of_slots fun plane epoch other found => ?_) ?_
      · have elsewhere : ¬ (op.plane = plane ∧ op.target.activationEpoch = epoch) := by
          rintro ⟨rfl, rfl⟩
          rw [empty] at found
          cases found
        rw [slots, if_neg elsewhere, AgentState.slot_setSlot, if_neg elsewhere]
        exact found
      · intro _ other found
        rw [empty] at found
        cases found

variable {op : ApplyOperation}

theorem sweepOrphan_slots {tuples : List OperationTuple} {opening : Option JournalOpening}
    (swept : Agent.sweepOrphan op tuples opening s = .ok next) :
    (((opening = none ∨ s.journal = none ∨ ownsJournal s.journal op = true ∨
          ∃ entry, s.journal = some entry ∧ isTerminalPhase entry.phase = true) ∧
        ∀ plane epoch, next.slot plane epoch = s.slot plane epoch)) ∨
      ∃ stale, opening.isSome = true ∧ s.journal = some stale ∧
        stale.op.identity ≠ op.identity ∧ isTerminalPhase stale.phase = false ∧
        ∃ owned : Plane → Nat → Prop,
          (∀ plane epoch, owned plane epoch ↔ plane ∈ planesOf stale.op ∧
            (epochsOf stale.op).get plane = some epoch ∧
            ownsSlotOp (s.slot plane epoch) stale.op.identity = true) ∧
          (∀ plane epoch, ¬ owned plane epoch → next.slot plane epoch = s.slot plane epoch) ∧
          ∀ plane epoch, owned plane epoch → next.slot plane epoch = none := by
  rcases Agent.sweepOrphan_ok swept with ⟨settled, rfl⟩ |
    ⟨stale, stamped, staleTuples, opened, journal, foreign, unfinished, stamping, extracted, rfl⟩
  · exact .inl ⟨settled, fun _ _ => rfl⟩
  · obtain ⟨terminal, rfl⟩ := stamping.only
    have freed := freed_releaseHeld { s with terminal := terminal }
      (Agent.holderWith stale.op staleTuples).identity
      (Agent.holderWith stale.op staleTuples).epochs
      (Agent.holderWith stale.op staleTuples).planes
    refine .inr ⟨stale, opened, journal, foreign, unfinished, _, ?_, freed.kept, freed.gone⟩
    intro plane epoch
    have planes : (Agent.holderWith stale.op staleTuples).planes = planesOf stale.op :=
      (Agent.tuplesOf_ok extracted).1
    have epochs : (Agent.holderWith stale.op staleTuples).epochs.get plane =
        if plane ∈ planesOf stale.op then (epochsOf stale.op).get plane else none :=
      Agent.declaredEpochs_get extracted plane
    rw [planes, epochs]
    constructor
    · rintro ⟨member, declared, owns⟩
      rw [if_pos member] at declared
      exact ⟨member, declared, owns⟩
    · rintro ⟨member, declared, owns⟩
      exact ⟨member, by rw [if_pos member]; exact declared, owns⟩

theorem reserves_slots {swept taken : AgentState} {tuples : List OperationTuple}
    {acks : List PlaneAck} (extracted : Agent.tuplesOf op = .ok tuples)
    (walked : traverse Agent.reserve tuples swept = .ok (acks, taken)) :
    (∀ plane epoch slot, swept.slot plane epoch = some slot →
      taken.slot plane epoch = some slot) ∧
    ∀ plane epoch slot, taken.slot plane epoch = some slot →
      swept.slot plane epoch = some slot ∨ slot.op.identity = op.identity := by
  refine traverse_preserves (fun current =>
    (∀ plane epoch slot, swept.slot plane epoch = some slot →
      current.slot plane epoch = some slot) ∧
    ∀ plane epoch slot, current.slot plane epoch = some slot →
      swept.slot plane epoch = some slot ∨ slot.op.identity = op.identity) ?_
    ⟨fun _ _ _ found => found, fun _ _ _ found => .inl found⟩ walked
  rintro tuple member current ack later ⟨kept, added⟩ reserved
  refine ⟨fun plane epoch slot found => reserve_keeps reserved (kept plane epoch slot found), ?_⟩
  intro plane epoch slot found
  rcases reserve_adds reserved found with before | rfl
  · exact added plane epoch slot before
  · exact .inr (tupleFor_identity ((Agent.tuplesOf_ok extracted).2 _ member))

theorem reserveAll_ownership {opening : Option JournalOpening} {acks : List PlaneAck}
    (reserved : Agent.reserveAll op opening s = .ok (acks, next)) :
    OwnershipKept s (.reserveAll op opening) next ↔ Tidy s (.reserveAll op opening) := by
  obtain ⟨tuples, swept, taken, extracted, -, -, -, sweeping, walked, rfl⟩ :=
    Agent.reserveAll_ok reserved
  obtain ⟨kept, added⟩ := reserves_slots extracted walked
  have slots : ∀ plane epoch, (Agent.openJournal op opening
      { taken with activeOperation := some (Agent.holderWith op tuples) }).slot plane epoch =
        taken.slot plane epoch := by
    intro plane epoch
    rw [AgentState.slot, Agent.openJournal_slot]
    rfl
  rcases sweepOrphan_slots sweeping with ⟨settled, same⟩ |
    ⟨stale, opened, journal, foreign, unfinished, owned, given, left, gone⟩
  · refine iff_of_true (kept_of_slots fun plane epoch slot found => ?_) ?_
    · rw [slots]
      exact kept plane epoch slot ((same plane epoch).trans found)
    · intro opened stale holder journal foreign unfinished
      rcases settled with rfl | none | owns | ⟨entry, present, ended⟩
      · cases opened
      · rw [journal] at none
        cases none
      · rw [journal] at owns
        exact absurd (Agent.ownsJournal_some.mp owns) foreign
      · cases journal.symm.trans present
        rw [unfinished] at ended
        cases ended
  · constructor
    · intro holds _ other holder journal' _ _ held same plane member epoch declared slot found owner
      cases journal.symm.trans journal'
      have taking : owned plane epoch := by
        refine (given plane epoch).mpr ⟨member, declared, ?_⟩
        rw [found]
        exact ownsSlotOp_some.mpr owner
      have other : AgentOp.actor s (.reserveAll op opening) ≠ some slot.op.identity := by
        rw [owner]
        exact fun equal => foreign (Option.some.inj equal).symm
      rcases holds plane epoch slot found other with stays | taken
      · rw [slots] at stays
        rcases added plane epoch slot stays with before | own
        · rw [gone plane epoch taking] at before
          cases before
        · exact foreign (owner.symm.trans own)
      · cases taken with
        | takeover _ _ _ idle => exact idle holder held (same.trans owner.symm)
    · intro tidy plane epoch slot found other
      by_cases taking : owned plane epoch
      · obtain ⟨member, declared, owns⟩ := (given plane epoch).mp taking
        rw [found] at owns
        have owner := ownsSlotOp_some.mp owns
        obtain ⟨first, rfl⟩ := Option.isSome_iff_exists.mp opened
        refine .inr (.takeover journal owner.symm unfinished fun holder held same => ?_)
        exact tidy opened stale holder journal foreign unfinished held (same.trans owner) plane
          member epoch declared slot found owner
      · rw [slots]
        exact .inl (kept plane epoch slot ((left plane epoch taking).trans found))

theorem held_ownership {who : Identity} {epochs : PerPlane (Option Nat)} {planes : List Plane}
    (slots : ∀ plane epoch,
      next.slot plane epoch = (releaseHeld s who epochs planes).slot plane epoch)
    (taking : o.actor s ≠ some who → MayTake s who o) : OwnershipKept s o next := by
  have freed := freed_releaseHeld s who epochs planes
  refine (kept_iff_of_freed
    (fun plane epoch other => (slots plane epoch).trans (freed.kept plane epoch other))
    (fun plane epoch own => (slots plane epoch).trans (freed.gone plane epoch own))).mpr ?_
  rintro plane epoch slot found ⟨-, -, owns⟩ foreign
  rw [found] at owns
  obtain rfl := ownsSlotOp_some.mp owns
  exact taking foreign

theorem releaseIdleHolder_ownership {reply : Bool}
    (released : Agent.releaseIdleHolder s = .ok (reply, next)) :
    OwnershipKept s .releaseIdleHolder next ↔ IdleHolderOwns s := by
  unfold Agent.releaseIdleHolder at released
  split at released
  · next idle =>
      cases released
      refine iff_of_true (kept_of_same fun _ _ => rfl) fun holder _ held => ?_
      rw [idle] at held
      cases held
  · next holder held =>
      split at released
      · next opened =>
          cases released
          refine iff_of_true (kept_of_same fun _ _ => rfl) fun _ unopened => ?_
          rw [unopened] at opened
          cases opened
      · next unopened =>
          cases released
          have freed := freed_dropSlots s holder.epochs holder.planes
          have actor : AgentOp.actor s .releaseIdleHolder = some holder.identity := by
            rw [AgentOp.actor, held]
            rfl
          rw [@kept_iff_of_freed s
            { s with
              reservations := Agent.dropSlots holder.epochs holder.planes s.reservations
              activeOperation := none } .releaseIdleHolder _ freed.kept freed.gone, actor]
          constructor
          · intro takes other _ held' plane member epoch declared slot found
            cases held.symm.trans held'
            by_contra foreign
            exact nomatch takes plane epoch slot found ⟨member, declared⟩
              fun equal => foreign (Option.some.inj equal).symm
          · rintro owns plane epoch slot found ⟨member, declared⟩ foreign
            have own := owns holder (by simpa using unopened) held plane member epoch declared
              slot found
            exact absurd (congrArg some own.symm) foreign

theorem finishOperation_ownership {planes : List Plane} {reply : Unit}
    (finished : Agent.finishOperation op planes s = .ok (reply, next)) :
    OwnershipKept s (.finishOperation op planes) next ↔ Tidy s (.finishOperation op planes) := by
  obtain ⟨middle, freed, rfl⟩ := Agent.finishOperation_ok finished
  rw [@kept_iff_of_freed s (vacate middle op.identity) (.finishOperation op planes)
    (Agent.OwnSlot s op planes) freed.kept freed.gone]
  constructor
  · intro takes plane member tuple extracted slot found same
    by_contra foreign
    have identity := tupleFor_identity extracted
    obtain rfl := tupleFor_plane extracted
    refine nomatch takes tuple.plane tuple.target.activationEpoch slot found
      ⟨member, tuple, extracted, rfl, ownsSlot_iff.mpr ⟨slot, found, same⟩⟩ ?_
    rw [AgentOp.actor, ← identity]
    exact fun equal => foreign (Option.some.inj equal).symm
  · rintro tidy plane epoch slot found ⟨member, tuple, extracted, rfl, owns⟩ foreign
    obtain ⟨other, taken, same⟩ := ownsSlot_iff.mp owns
    have identity := tupleFor_identity extracted
    obtain rfl := tupleFor_plane extracted
    cases found.symm.trans taken
    rw [AgentOp.actor, tidy _ member tuple extracted slot found same, identity] at foreign
    exact absurd rfl foreign

/-- An operation leaves the reservations of other transitions alone exactly when
the slots it gives back are its own. -/
theorem mutate_ownership {reply : o.Reply} (mutated : o.mutate s = .ok (reply, next)) :
    OwnershipKept s o next ↔ Tidy s o := by
  cases o with
  | fence token =>
      refine iff_of_true ?_ trivial
      obtain ⟨-, -, cases⟩ := Agent.fence_ok mutated
      rcases cases with ⟨rfl, -⟩ | ⟨holder, -, older, rfl⟩
      · exact kept_of_same fun _ _ => rfl
      · exact @held_ownership s _ _ holder.identity holder.epochs holder.planes (fun _ _ => rfl)
          fun _ => .fence older
  | reserveAll op opening => exact reserveAll_ownership mutated
  | reserve op =>
      exact iff_of_true (kept_of_slots fun _ _ _ found => reserve_keeps mutated found) trivial
  | stage op => exact stage_ownership mutated
  | commit op evidence =>
      obtain ⟨-, -, cases⟩ := Agent.commit_ok mutated
      rcases cases with ⟨⟨seen, cached, -⟩, rfl⟩ | ⟨-, standing, -, rfl⟩ |
        ⟨fresh, moving, -, -, rfl⟩
      · refine iff_of_true (kept_of_same fun _ _ => rfl) fun unanswered => ?_
        rw [cached] at unanswered
        cases unanswered
      · refine iff_of_true (kept_of_same fun _ _ => rfl) fun _ moving => ?_
        rw [standing] at moving
        cases moving
      · have place := @kept_iff_ownPlace s (Agent.moved s op evidence) (.commit op evidence) op rfl
          (fun _ may => nomatch may) fun _ _ => rfl
        rw [place]
        exact ⟨fun own _ _ => own, fun own => own fresh.1 moving⟩
  | abort op =>
      exact finalize_ownership rfl (fun _ may => nomatch may) (Agent.abort_ok mutated)
  | fail op =>
      exact finalize_ownership rfl (fun _ may => nomatch may) (Agent.fail_ok mutated)
  | release op =>
      obtain ⟨-, cases⟩ := Agent.release_ok mutated
      rcases cases with ⟨ended, rfl⟩ | ⟨open_, rfl⟩
      · exact iff_of_true (kept_of_same fun _ _ => rfl) fun open_ => absurd open_ ended
      · have place := @kept_iff_ownPlace s (Agent.forget (withoutOwnSlot s op) op) (.release op) op
          rfl (fun _ may => nomatch may) fun _ _ => rfl
        rw [place]
        exact ⟨fun own _ => own, fun own => own open_⟩
  | applyHealth op =>
      refine iff_of_true ?_ trivial
      obtain ⟨-, -, cases⟩ := Agent.applyHealth_ok mutated
      rcases cases with ⟨-, rfl⟩ | ⟨-, -, -, rfl⟩
      · exact kept_of_same fun _ _ => rfl
      · exact kept_of_same fun _ _ => rfl
  | recordPublishIntent record =>
      obtain ⟨-, rfl⟩ := Agent.recordPublishIntent_ok mutated
      exact iff_of_true (kept_of_same fun _ _ => rfl) trivial
  | releaseHolderSlots op =>
      refine iff_of_true ?_ trivial
      rcases Agent.releaseHolderSlots_ok mutated with ⟨-, rfl⟩ | ⟨holder, -, -, rfl⟩
      · exact kept_of_same fun _ _ => rfl
      · exact @held_ownership s _ _ op.identity holder.epochs holder.planes (fun _ _ => rfl)
          fun foreign => absurd rfl foreign
  | releaseStaleSlots op =>
      refine iff_of_true ?_ trivial
      rcases Agent.releaseStaleSlots_ok mutated with ⟨-, rfl⟩ | ⟨-, rfl⟩
      · exact kept_of_same fun _ _ => rfl
      · exact held_ownership (fun _ _ => rfl) fun foreign => absurd rfl foreign
  | closeJournal op how =>
      refine iff_of_true ?_ trivial
      rcases Agent.closeJournal_ok mutated with rfl | ⟨entry, phase, -, -, -, -, rfl⟩
      · exact kept_of_same fun _ _ => rfl
      · exact kept_of_same fun _ _ => rfl
  | releaseIdleHolder => exact releaseIdleHolder_ownership mutated
  | reclaimOperation op =>
      refine iff_of_true ?_ trivial
      rcases Agent.reclaimOperation_ok mutated with ⟨-, rfl⟩ | ⟨-, -, rfl⟩
      · exact kept_of_same fun _ _ => rfl
      · exact kept_of_same fun _ _ => rfl
  | finishOperation op planes => exact finishOperation_ownership mutated
  | writeJournal entry =>
      obtain ⟨-, -, -, rfl⟩ := Agent.writeJournal_ok mutated
      exact iff_of_true (kept_of_same fun _ _ => rfl) trivial

end Steps

theorem step_ownership {s next : AgentState} {o : AgentOp} (step : AgentStep s o next) :
    OwnershipKept s o next ↔ Tidy s o := by
  obtain ⟨reply, succeeded⟩ := step
  obtain ⟨changed, mutated, rfl, -⟩ := serial_ok succeeded
  rw [← mutate_ownership mutated]
  simp only [OwnershipKept, prune_slot]

/-- An idle holder gives back a slot that another transition has taken since. -/
def idleAfterRelease : List AgentOp :=
  [.reserveAll (plainOperation ⟨"first", "t", 1⟩ 0 1) none,
    .release (plainTuple ⟨"first", "t", 1⟩ .http 0 1),
    .reserve (plainTuple ⟨"second", "t", 1⟩ .http 0 1),
    .releaseIdleHolder]

def idleAfterReserve : List AgentOp :=
  [.reserveAll (plainOperation ⟨"first", "t", 1⟩ 0 1) none, .releaseIdleHolder]

theorem reservation_ownership_iff {history : AgentHistory} {final : AgentState}
    (run : AgentRun history final) :
    (∀ event ∈ history, OwnershipKept event.before event.label event.after) ↔
      ∀ event ∈ history, Tidy event.before event.label := by
  have steps := @Follows.at_events _ _ _ _ _ _ (fun _ => True) run trivial fun _ _ _ _ _ => trivial
  constructor
  · exact fun kept event member => (step_ownership (steps event member).1).mp (kept event member)
  · exact fun tidy event member => (step_ownership (steps event member).1).mpr (tidy event member)

theorem reservation_ownership_of_idle_holder :
    ∃ history final, AgentRun history final ∧ history.map Event.label = idleAfterReserve ∧
      ((∀ event ∈ history, OwnershipKept event.before event.label event.after) ↔
        ∀ event ∈ history, Tidy event.before event.label) := by
  obtain ⟨history, final, run, labels, -⟩ :=
    exists_run_of_performAll idleAfterReserve (fun _ _ => true) (by decide +kernel)
  exact ⟨history, final, run, labels, reservation_ownership_iff run⟩

theorem idle_holder_drops_foreign_slot :
    ∃ history final, AgentRun history final ∧
      ¬ ∀ event ∈ history, OwnershipKept event.before event.label event.after := by
  obtain ⟨history, final, run, -, seen⟩ := exists_run_of_performAll idleAfterRelease
    (fun history _ => history.any fun event => decide
      (event.label = .releaseIdleHolder ∧
        event.before.slot .http 1 = some { op := plainTuple ⟨"second", "t", 1⟩ .http 0 1 } ∧
        event.label.actor event.before = some ⟨"first", "t", 1⟩ ∧
        event.after.slot .http 1 = none)) (by decide +kernel)
  refine ⟨history, final, run, fun kept => ?_⟩
  obtain ⟨event, member, holding⟩ := List.any_eq_true.mp seen
  obtain ⟨label, found, actor, gone⟩ := of_decide_eq_true holding
  have foreign : event.label.actor event.before ≠
      some (plainTuple ⟨"second", "t", 1⟩ .http 0 1).identity := by
    rw [actor]
    decide
  rcases kept event member .http 1 _ found foreign with stays | taken
  · rw [gone] at stays
    cases stays
  · rw [label] at taken
    cases taken

end Barycenter.Dp
