import Barycenter.Dp.AgentKeys
import Barycenter.Dp.AgentFrames

/-!
# What each operation does to the ledgers

A cached answer is either old or fresh, and a fresh one has grounds: its tuple
owned the slot, or its epoch had not been passed.  The record of a finished
transition is either old or was written for a transition that had none.
-/

namespace Barycenter.Dp

open Outcome

/-- The tuple has its slot, or the slot is still ahead. -/
def Claims (s : AgentState) (op : OperationTuple) : Prop :=
  (∃ slot, s.slot op.plane op.target.activationEpoch = some slot ∧
      canonical slot.op = canonical op) ∨
    (s.planes.get op.plane).activationEpoch < op.target.activationEpoch

def Grounded (s : AgentState) (op : OperationTuple) : Prop :=
  Claims s op ∨ (s.planes.get op.plane).activationEpoch = op.target.activationEpoch

inductive AnswerOrigin (s : AgentState) (name : String) (seen : CompletedStep) : Prop where
  | before (found : s.completed.get? name = some seen)
  | fresh (op : OperationTuple) (step : Step) (at_ : name = key op step)
      (text : seen.tuple = canonical op) (grounds : Grounded s op)
      (claims : step = .reserve → Claims s op)

/-- Every cached answer of a state has an origin in an earlier one. -/
def AnswersFrom (s next : AgentState) : Prop :=
  ∀ name seen, next.completed.get? name = some seen → AnswerOrigin s name seen

variable {s next : AgentState}

theorem AnswersFrom.of_subset (subset : ∀ name seen, next.completed.get? name = some seen →
      s.completed.get? name = some seen) : AnswersFrom s next :=
  fun name seen found => .before (subset name seen found)

theorem AnswersFrom.of_same (same : next.completed = s.completed) : AnswersFrom s next :=
  .of_subset fun _ _ found => same ▸ found

variable {middle : AgentState}

/-- Grounds in a later state are grounds in an earlier one, when the planes did
not move. -/
theorem Claims.earlier {op : OperationTuple}
    (claims : Claims middle op) (planes : middle.planes = s.planes)
    (slots : SlotsFrom s middle) : Claims s op := by
  rcases claims with ⟨slot, found, same⟩ | ahead
  · rcases slots _ _ slot found with ⟨old, oldFound, sameOp⟩ | ⟨-, -, -, forward, -, -⟩
    · exact .inl ⟨old, oldFound, by rw [sameOp, same]⟩
    · exact .inr forward
  · rw [planes] at ahead
    exact .inr ahead

theorem Grounded.earlier {op : OperationTuple}
    (grounds : Grounded middle op) (planes : middle.planes = s.planes)
    (slots : SlotsFrom s middle) : Grounded s op := by
  rcases grounds with claims | standing
  · exact .inl (claims.earlier planes slots)
  · rw [planes] at standing
    exact .inr standing

theorem AnswersFrom.trans (first : AnswersFrom s middle)
    (planes : middle.planes = s.planes) (slots : SlotsFrom s middle)
    (second : AnswersFrom middle next) : AnswersFrom s next := by
  intro name seen found
  rcases second name seen found with before | ⟨op, step, at_, text, grounds, claims⟩
  · exact first name seen before
  · exact .fresh op step at_ text (grounds.earlier planes slots)
      fun reserving => (claims reserving).earlier planes slots

theorem record_answersFrom (taken : AgentState) {op : OperationTuple} {step : Step}
    {result : PlaneState} (same : taken.completed = s.completed)
    (grounds : Grounded s op) (claims : step = .reserve → Claims s op) :
    AnswersFrom s (record taken op step result) := by
  intro name seen found
  simp only [record, OrderedMap.get?_set] at found
  split at found
  · rename_i here
    simp only [Option.some.injEq] at found
    subst found
    exact .fresh op step here.symm rfl grounds claims
  · exact .before (same ▸ found)

theorem acquire_claims {op : OperationTuple} {slot : Reservation}
    (acquired : acquire (s.raise op.leaderToken) op = .ok (slot, next)) :
    next.completed = s.completed ∧ Claims s op := by
  rcases acquire_ok acquired with ⟨taken, same, rfl⟩ | ⟨claimable, -, rfl⟩
  · exact ⟨rfl, .inl ⟨slot, taken, same⟩⟩
  · exact ⟨rfl, .inr claimable.forward⟩

namespace Agent

variable {s next : AgentState} {ack : PlaneAck}

theorem reserve_answersFrom {op : OperationTuple}
    (reserved : reserve op s = .ok (ack, next)) : AnswersFrom s next := by
  obtain ⟨-, -, cases⟩ := reserve_ok reserved
  rcases cases with ⟨-, rfl⟩ | ⟨-, -, slot, taken, acquired, rfl⟩
  · exact .of_same rfl
  · obtain ⟨same, claims⟩ := acquire_claims acquired
    exact record_answersFrom _ same (.inl claims) fun _ => claims

theorem stage_answersFrom {op : OperationTuple}
    (staged : stage op s = .ok (ack, next)) : AnswersFrom s next := by
  obtain ⟨-, -, cases⟩ := stage_ok staged
  rcases cases with ⟨-, rfl⟩ | ⟨-, -, slot, taken, acquired, rfl⟩
  · exact .of_same rfl
  · obtain ⟨same, claims⟩ := acquire_claims acquired
    exact record_answersFrom _ same (.inl claims) fun _ => claims

theorem alreadyThere_iff {op : OperationTuple} :
    alreadyThere s op = true ↔
      (s.planes.get op.plane).coordinate = op.target ∧
        (s.planes.get op.plane).payloadDigest = op.payloadDigest ∧
        authoredBy (s.planes.get op.plane) op.identity = true := by
  simp [alreadyThere, sameCoordinate_iff, and_assoc]

theorem commit_answersFrom {op : OperationTuple}
    {evidence : ActivationEvidence}
    (committed : commit op evidence s = .ok (ack, next)) : AnswersFrom s next := by
  obtain ⟨-, -, cases⟩ := commit_ok committed
  rcases cases with ⟨-, rfl⟩ | ⟨-, standing, -, rfl⟩ | ⟨-, -, ⟨slot, moves⟩, -, rfl⟩
  · exact .of_same rfl
  · have here := congrArg Coordinate.activationEpoch (alreadyThere_iff.mp standing).1
    exact record_answersFrom (s.raise op.leaderToken) rfl (.inr here) nofun
  · exact record_answersFrom _ rfl (.inl (.inl ⟨slot, moves.found, moves.owned⟩)) nofun

theorem applyHealth_answersFrom {op : OperationTuple}
    (applied : applyHealth op s = .ok (ack, next)) :
    AnswersFrom s next := by
  obtain ⟨-, -, cases⟩ := applyHealth_ok applied
  rcases cases with ⟨-, rfl⟩ | ⟨-, revises, -, rfl⟩
  · exact .of_same rfl
  · exact record_answersFrom _ rfl (.inr revises.sameEpoch.symm) nofun

theorem reserves_answersFrom {tuples : List OperationTuple}
    {acks : List PlaneAck}
    (reserved : traverse reserve tuples s = .ok (acks, next)) : AnswersFrom s next := by
  have walked := traverse_preserves
    (fun current => current.planes = s.planes ∧
      s.maxLeaderToken ≤ current.maxLeaderToken ∧ SlotsFrom s current ∧
        AnswersFrom s current)
    ?_ ⟨rfl, le_refl _, .refl s, .of_same rfl⟩ reserved
  · exact walked.2.2.2
  · rintro op - current ack later ⟨planes, newest, slots, answers⟩ step
    obtain ⟨token, _, _, raised, equation⟩ := reserve_only step
    have later_planes : later.planes = current.planes := by rw [equation]
    have later_newest : current.maxLeaderToken ≤ later.maxLeaderToken := by
      rw [equation]
      exact raised
    exact ⟨later_planes.trans planes, newest.trans later_newest,
      slots.trans planes newest later_newest (reserve_slotsFrom step),
      answers.trans planes slots (reserve_answersFrom step)⟩

theorem openJournal_only (op : ApplyOperation) (opening : Option JournalOpening)
    (s : AgentState) : ∃ journal, openJournal op opening s = { s with journal := journal } := by
  cases opening with
  | none => exact ⟨s.journal, rfl⟩
  | some first =>
      simp only [openJournal]
      split
      · exact ⟨s.journal, rfl⟩
      · exact ⟨_, rfl⟩

end Agent

variable {tuples : List OperationTuple} {opening : Option JournalOpening} {op : ApplyOperation}

theorem sweepOrphan_completed (swept : Agent.sweepOrphan op tuples opening s = .ok next) :
    next.completed = s.completed := by
  rcases Agent.sweepOrphan_ok swept with ⟨-, rfl⟩ |
    ⟨stale, stamped, staleTuples, -, -, -, -, stamping, -, rfl⟩
  · rfl
  · obtain ⟨terminal, rfl⟩ := stamping.only
    rfl

variable {o : AgentOp} {reply : o.Reply}

theorem mutate_answersFrom (mutated : o.mutate s = .ok (reply, next)) : AnswersFrom s next := by
  cases o with
  | reserveAll op opening =>
      obtain ⟨tuples, swept, taken, -, -, -, -, sweeping, walked, rfl⟩ :=
        Agent.reserveAll_ok mutated
      obtain ⟨planes, -, -, slots⟩ := sweepOrphan_only sweeping
      have answers := AnswersFrom.trans (.of_same (sweepOrphan_completed sweeping))
        planes slots (Agent.reserves_answersFrom walked)
      obtain ⟨journal, opened⟩ := Agent.openJournal_only op opening
        { taken with activeOperation := some (Agent.holderWith op tuples) }
      rw [opened]
      exact answers
  | reserve op => exact Agent.reserve_answersFrom mutated
  | stage op => exact Agent.stage_answersFrom mutated
  | commit op evidence => exact Agent.commit_answersFrom mutated
  | abort op =>
      obtain ⟨_, _, _, _, -, rfl⟩ := Agent.finalize_only (Agent.abort_ok mutated)
      exact .of_same rfl
  | release op =>
      obtain ⟨-, cases⟩ := Agent.release_ok mutated
      rcases cases with ⟨-, rfl⟩ | ⟨-, rfl⟩
      · exact .of_same rfl
      · refine .of_subset fun name seen found => ?_
        simp only [Agent.forget, List.foldl_cons, List.foldl_nil, OrderedMap.get?_erase]
          at found
        repeat (split at found; cases found)
        exact found
  | fail op =>
      obtain ⟨_, _, _, _, -, rfl⟩ := Agent.finalize_only (Agent.fail_ok mutated)
      exact .of_same rfl
  | applyHealth op => exact Agent.applyHealth_answersFrom mutated
  | _ => exact .of_same (mutate_clerical mutated rfl).completed

/-- Records are old, or new for a transition that had none. -/
def VerdictsFrom (s next : AgentState) : Prop :=
  ∀ name, next.terminal.get? name = s.terminal.get? name ∨
    ∃ who plane, name = transitionKey who plane ∧ terminalOf s who plane = none

theorem VerdictsFrom.of_same (same : next.terminal = s.terminal) :
    VerdictsFrom s next :=
  fun name => .inl (by rw [same])

theorem finish_verdictsFrom (before : AgentState) {op : OperationTuple}
    {how : TerminalKind} (same : before.terminal = s.terminal)
    (unended : terminalOf s op.identity op.plane = none) :
    VerdictsFrom s (finish before op how) := by
  intro name
  by_cases here : transitionKey op.identity op.plane = name
  · exact .inr ⟨op.identity, op.plane, here.symm, unended⟩
  · refine .inl ?_
    simp only [finish, OrderedMap.get?_set, here, if_false, same]

theorem Agent.finalize_verdictsFrom {op : OperationTuple}
    {how : TerminalKind} (finalized : finalize s op how = .ok next) :
    VerdictsFrom s next := by
  obtain ⟨-, cases⟩ := finalize_ok finalized
  rcases cases with ⟨-, rfl⟩ | ⟨unended, rfl⟩
  · exact .of_same rfl
  · exact finish_verdictsFrom _ rfl unended

theorem sweepOrphan_verdictsFrom (swept : Agent.sweepOrphan op tuples opening s = .ok next) :
    VerdictsFrom s next := by
  rcases Agent.sweepOrphan_ok swept with ⟨-, rfl⟩ |
    ⟨stale, stamped, staleTuples, -, -, -, -, stamping, -, rfl⟩
  · exact .of_same rfl
  · intro name
    rcases stamping.record name with same | ⟨-, -, -, plane, rfl, unended⟩
    · exact .inl same
    · exact .inr ⟨stale.op.identity, plane, rfl, unended⟩

theorem mutate_verdictsFrom (mutated : o.mutate s = .ok (reply, next)) : VerdictsFrom s next := by
  cases o with
  | reserveAll op opening =>
      obtain ⟨tuples, swept, taken, -, -, -, -, sweeping, walked, rfl⟩ :=
        Agent.reserveAll_ok mutated
      obtain ⟨_, _, _, -, rfl⟩ := Agent.reserves_only walked
      obtain ⟨journal, opened⟩ := Agent.openJournal_only op opening _
      have verdicts := sweepOrphan_verdictsFrom sweeping
      rw [opened]
      exact verdicts
  | reserve op =>
      obtain ⟨_, _, _, -, rfl⟩ := Agent.reserve_only mutated
      exact .of_same rfl
  | stage op =>
      obtain ⟨_, _, _, -, rfl⟩ := Agent.stage_only mutated
      exact .of_same rfl
  | commit op evidence =>
      obtain ⟨-, -, cases⟩ := Agent.commit_ok mutated
      rcases cases with ⟨-, rfl⟩ | ⟨-, -, -, rfl⟩ | ⟨fresh, -, -, -, rfl⟩
      · exact .of_same rfl
      · exact .of_same rfl
      · exact finish_verdictsFrom (Agent.place (s.raise op.leaderToken) op evidence) rfl fresh.2
  | abort op => exact Agent.finalize_verdictsFrom (Agent.abort_ok mutated)
  | release op =>
      obtain ⟨-, cases⟩ := Agent.release_ok mutated
      rcases cases with ⟨-, rfl⟩ | ⟨-, rfl⟩
      · exact .of_same rfl
      · exact .of_same rfl
  | fail op => exact Agent.finalize_verdictsFrom (Agent.fail_ok mutated)
  | applyHealth op =>
      obtain ⟨-, -, cases⟩ := Agent.applyHealth_ok mutated
      rcases cases with ⟨-, rfl⟩ | ⟨-, -, -, rfl⟩
      · exact .of_same rfl
      · exact .of_same rfl
  | _ => exact .of_same (mutate_clerical mutated rfl).terminal

theorem terminalOf_eq_none {who : Identity} {plane : Plane} :
    terminalOf s who plane = none ↔
      s.terminal.get? (transitionKey who plane) = none ∧
        s.terminal.get? (legacyTerminalKey who plane) = none :=
  Option.or_eq_none_iff

/-- A transition that has ended stays ended, and the same way, until its record
is trimmed. -/
theorem VerdictsFrom.terminalOf (from_ : VerdictsFrom s next)
    {who : Identity} {plane : Plane} {how : TerminalKind}
    (ended : terminalOf s who plane = some how) :
    Barycenter.Dp.terminalOf next who plane = some how := by
  have own : next.terminal.get? (transitionKey who plane) =
      s.terminal.get? (transitionKey who plane) := by
    rcases from_ (transitionKey who plane) with same | ⟨other, otherPlane, same, unended⟩
    · exact same
    · obtain ⟨-, -, legacy⟩ := same_transitionKey same
      rw [terminalOf_eq_none, ← same, ← legacy, ← terminalOf_eq_none, ended] at unended
      cases unended
  rw [Barycenter.Dp.terminalOf, own]
  rcases from_ (legacyTerminalKey who plane) with same | ⟨other, otherPlane, same, unended⟩
  · rw [same]
    exact ended
  · have unrecorded := (terminalOf_eq_none.mp unended).1
    rw [← same] at unrecorded
    rw [Barycenter.Dp.terminalOf, unrecorded, Option.or_none] at ended
    rw [ended]
    rfl

/-- The place of a record is old, or new for a transition that had none. -/
def PlacesFrom (s next : AgentState) : Prop :=
  ∀ name, next.terminalAt.get? name = s.terminalAt.get? name ∨
    ∃ who plane epoch, name = transitionKey who plane ∧ terminalOf s who plane = none ∧
      next.terminalAt.get? name = some { plane := plane, epoch := epoch }

theorem PlacesFrom.of_same (same : next.terminalAt = s.terminalAt) :
    PlacesFrom s next :=
  fun name => .inl (by rw [same])

theorem finish_placesFrom (before : AgentState) {op : OperationTuple}
    {how : TerminalKind} (same : before.terminalAt = s.terminalAt)
    (unended : terminalOf s op.identity op.plane = none) :
    PlacesFrom s (finish before op how) := by
  intro name
  by_cases here : transitionKey op.identity op.plane = name
  · refine .inr ⟨op.identity, op.plane, op.target.activationEpoch, here.symm, unended, ?_⟩
    simp [finish, here]
  · refine .inl ?_
    simp only [finish, OrderedMap.get?_set, here, if_false, same]

theorem Agent.finalize_placesFrom {op : OperationTuple}
    {how : TerminalKind} (finalized : finalize s op how = .ok next) :
    PlacesFrom s next := by
  obtain ⟨-, cases⟩ := finalize_ok finalized
  rcases cases with ⟨-, rfl⟩ | ⟨unended, rfl⟩
  · exact .of_same rfl
  · exact finish_placesFrom _ rfl unended

theorem sweepOrphan_places (swept : Agent.sweepOrphan op tuples opening s = .ok next) :
    next.terminalAt = s.terminalAt := by
  rcases Agent.sweepOrphan_ok swept with ⟨-, rfl⟩ |
    ⟨stale, stamped, staleTuples, -, -, -, -, stamping, -, rfl⟩
  · rfl
  · obtain ⟨terminal, rfl⟩ := stamping.only
    rfl

theorem mutate_placesFrom (mutated : o.mutate s = .ok (reply, next)) : PlacesFrom s next := by
  cases o with
  | reserveAll op opening =>
      obtain ⟨tuples, swept, taken, -, -, -, -, sweeping, walked, rfl⟩ :=
        Agent.reserveAll_ok mutated
      obtain ⟨_, _, _, -, rfl⟩ := Agent.reserves_only walked
      obtain ⟨journal, opened⟩ := Agent.openJournal_only op opening _
      have places := sweepOrphan_places sweeping
      rw [opened]
      exact .of_same places
  | reserve op =>
      obtain ⟨_, _, _, -, rfl⟩ := Agent.reserve_only mutated
      exact .of_same rfl
  | stage op =>
      obtain ⟨_, _, _, -, rfl⟩ := Agent.stage_only mutated
      exact .of_same rfl
  | commit op evidence =>
      obtain ⟨-, -, cases⟩ := Agent.commit_ok mutated
      rcases cases with ⟨-, rfl⟩ | ⟨-, -, -, rfl⟩ | ⟨fresh, -, -, -, rfl⟩
      · exact .of_same rfl
      · exact .of_same rfl
      · exact @finish_placesFrom s (Agent.place (s.raise op.leaderToken) op evidence) op
          .activated rfl fresh.2
  | abort op => exact Agent.finalize_placesFrom (Agent.abort_ok mutated)
  | release op =>
      obtain ⟨-, cases⟩ := Agent.release_ok mutated
      rcases cases with ⟨-, rfl⟩ | ⟨-, rfl⟩
      · exact .of_same rfl
      · exact .of_same rfl
  | fail op => exact Agent.finalize_placesFrom (Agent.fail_ok mutated)
  | applyHealth op =>
      obtain ⟨-, -, cases⟩ := Agent.applyHealth_ok mutated
      rcases cases with ⟨-, rfl⟩ | ⟨-, -, -, rfl⟩
      · exact .of_same rfl
      · exact .of_same rfl
  | _ => exact .of_same (mutate_clerical mutated rfl).terminalAt

theorem PlacesFrom.recorded (from_ : PlacesFrom s next)
    {name : String} (recorded : s.terminal.get? name ≠ none) :
    next.terminalAt.get? name = s.terminalAt.get? name := by
  rcases from_ name with same | ⟨who, plane, epoch, rfl, unended, -⟩
  · exact same
  · exact absurd (terminalOf_eq_none.mp unended).1 recorded

end Barycenter.Dp
