import Barycenter.Dp.AgentRecords
import Barycenter.Dp.AgentRuns

/-!
# How the journal changes

The journal stays as it is, is replaced by its successor, is closed, or is taken
over by another operation.  Every change gives it a larger number, so a number
stands for one content.
-/

namespace Barycenter.Dp

open Outcome

/-- The number of the journal entry, or zero when nothing was ever opened. -/
def seqOf (s : AgentState) : Nat := (s.journal.map JournalEntry.seq).getD 0

theorem seqOf_some {s : AgentState} {entry : JournalEntry} (found : s.journal = some entry) :
    seqOf s = entry.seq := by
  rw [seqOf, found]
  rfl

inductive JournalChange (s : AgentState) (o : AgentOp) (next : AgentState) : Prop where
  | kept (same : next.journal = s.journal)
  | written (entry : JournalEntry) (wrote : o = .writeJournal entry)
      (successor : entry.seq = seqOf s + 1) (now : next.journal = some entry)
  | closed (entry : JournalEntry) (phase : ApplyPhase) (was : s.journal = some entry)
      (now : next.journal = some (entry.closedAs phase))
  | opened (op : ApplyOperation) (opening : JournalOpening) (seq : Nat)
      (opens : o = .reserveAll op (some opening))
      (foreign : ownsJournal s.journal op = false) (ahead : seqOf s < seq)
      (now : next.journal = some { opening with seq := seq })

theorem supersede_journal (s : AgentState) (holder : ActiveOperation) :
    (supersede s holder).journal = s.journal ∨
      ∃ entry phase, s.journal = some entry ∧
        (supersede s holder).journal = some (entry.closedAs phase) := by
  change (s.journal.map fun entry =>
      if sameTransitionName entry.op.identity holder.identity && !isTerminalPhase entry.phase then
        entry.closedAs .superseded
      else entry) = _ ∨ ∃ entry phase, _ ∧ (s.journal.map fun entry =>
      if sameTransitionName entry.op.identity holder.identity && !isTerminalPhase entry.phase then
        entry.closedAs .superseded
      else entry) = _
  cases s.journal with
  | none => exact .inl rfl
  | some entry =>
      simp only [Option.map_some]
      split
      · exact .inr ⟨entry, .superseded, rfl, rfl⟩
      · exact .inl rfl

variable {s next : AgentState}

theorem sweepOrphan_journal {op : ApplyOperation} {tuples : List OperationTuple}
    {opening : Option JournalOpening} (swept : Agent.sweepOrphan op tuples opening s = .ok next) :
    next.journal = s.journal ∨
      (opening.isSome = true ∧ ownsJournal s.journal op = false ∧
        ownsJournal next.journal op = false ∧ seqOf s ≤ seqOf next) := by
  rcases Agent.sweepOrphan_ok swept with ⟨-, rfl⟩ |
    ⟨stale, stamped, staleTuples, opened, journal, foreign, -, stamping, -, rfl⟩
  · exact .inl rfl
  · obtain ⟨terminal, rfl⟩ := stamping.only
    have kept : ({ s with terminal := terminal } : AgentState).journal = s.journal := rfl
    rcases supersede_journal { s with terminal := terminal }
      (Agent.holderWith stale.op staleTuples) with same | ⟨entry, phase, was, now⟩
    · exact .inl (same.trans kept)
    · rw [kept, journal] at was
      cases was
      refine .inr ⟨opened, ?_, ?_, ?_⟩
      · rw [journal]
        exact decide_eq_false foreign
      · rw [now]
        exact decide_eq_false foreign
      · rw [seqOf_some now, seqOf_some journal]
        exact Nat.le_succ _

theorem reserveAll_journal {op : ApplyOperation} {opening : Option JournalOpening}
    {acks : List PlaneAck} (reserved : Agent.reserveAll op opening s = .ok (acks, next)) :
    JournalChange s (.reserveAll op opening) next := by
  obtain ⟨tuples, swept, taken, -, -, -, -, sweeping, walked, rfl⟩ :=
    Agent.reserveAll_ok reserved
  obtain ⟨_, _, _, -, rfl⟩ := Agent.reserves_only walked
  have cleaned := sweepOrphan_journal sweeping
  cases opening with
  | none =>
      rcases cleaned with same | ⟨opened, -⟩
      · exact .kept same
      · cases opened
  | some first =>
      simp only [Agent.openJournal]
      split
      · rename_i owned
        rcases cleaned with same | ⟨-, -, foreign, -⟩
        · exact .kept same
        · exact absurd owned (Bool.eq_false_iff.mp foreign)
      · rename_i foreign
        rw [Bool.not_eq_true] at foreign
        rcases cleaned with same | ⟨-, other, -, ahead⟩
        · have foreign : ownsJournal swept.journal op = false := foreign
          rw [same] at foreign
          refine .opened op first _ rfl foreign (Nat.lt_succ_of_le ?_) rfl
          exact (congrArg (fun journal => (Option.map JournalEntry.seq journal).getD 0) same).ge
        · exact .opened op first _ rfl other (Nat.lt_succ_of_le ahead) rfl

variable {o : AgentOp}

theorem mutate_journal {reply : o.Reply} (mutated : o.mutate s = .ok (reply, next)) :
    JournalChange s o next := by
  cases o with
  | fence leaderToken =>
      obtain ⟨-, -, cases⟩ := Agent.fence_ok mutated
      rcases cases with ⟨rfl, -⟩ | ⟨holder, -, -, rfl⟩
      · exact .kept rfl
      · rcases supersede_journal { s with maxLeaderToken := normalizeNumeric leaderToken } holder
          with same | ⟨entry, phase, was, now⟩
        · exact .kept same
        · exact .closed entry phase was now
  | reserveAll op opening => exact reserveAll_journal mutated
  | reserve op =>
      obtain ⟨_, _, _, -, rfl⟩ := Agent.reserve_only mutated
      exact .kept rfl
  | stage op =>
      obtain ⟨_, _, _, -, rfl⟩ := Agent.stage_only mutated
      exact .kept rfl
  | commit op evidence =>
      obtain ⟨-, -, cases⟩ := Agent.commit_ok mutated
      rcases cases with ⟨-, rfl⟩ | ⟨-, -, -, rfl⟩ | ⟨-, -, -, -, rfl⟩ <;> exact .kept rfl
  | abort op =>
      obtain ⟨_, _, _, _, -, rfl⟩ := Agent.finalize_only (Agent.abort_ok mutated)
      exact .kept rfl
  | release op =>
      obtain ⟨-, cases⟩ := Agent.release_ok mutated
      rcases cases with ⟨-, rfl⟩ | ⟨-, rfl⟩ <;> exact .kept rfl
  | fail op =>
      obtain ⟨_, _, _, _, -, rfl⟩ := Agent.finalize_only (Agent.fail_ok mutated)
      exact .kept rfl
  | applyHealth op =>
      obtain ⟨-, -, cases⟩ := Agent.applyHealth_ok mutated
      rcases cases with ⟨-, rfl⟩ | ⟨-, -, -, rfl⟩ <;> exact .kept rfl
  | recordPublishIntent record =>
      obtain ⟨-, rfl⟩ := Agent.recordPublishIntent_ok mutated
      exact .kept rfl
  | releaseHolderSlots op =>
      rcases Agent.releaseHolderSlots_ok mutated with ⟨-, rfl⟩ | ⟨holder, -, -, rfl⟩ <;>
        exact .kept rfl
  | releaseStaleSlots op =>
      rcases Agent.releaseStaleSlots_ok mutated with ⟨-, rfl⟩ | ⟨-, rfl⟩ <;> exact .kept rfl
  | closeJournal op how =>
      rcases Agent.closeJournal_ok mutated with rfl | ⟨entry, phase, was, -, -, -, rfl⟩
      · exact .kept rfl
      · exact .closed entry phase was rfl
  | releaseIdleHolder =>
      rcases Agent.releaseIdleHolder_ok mutated with rfl | ⟨holder, -, -, rfl⟩ <;>
        exact .kept rfl
  | reclaimOperation op =>
      rcases Agent.reclaimOperation_ok mutated with ⟨-, rfl⟩ | ⟨-, -, rfl⟩ <;> exact .kept rfl
  | finishOperation op releasePlanes =>
      obtain ⟨freed, freeing, rfl⟩ := Agent.finishOperation_ok mutated
      obtain ⟨reservations, rfl⟩ := freeing.only
      exact .kept rfl
  | writeJournal entry =>
      obtain ⟨-, -, successor, rfl⟩ := Agent.writeJournal_ok mutated
      exact .written entry rfl successor rfl

theorem serial_journal {reply : o.Reply} (succeeded : serial o s = .ok (reply, next)) :
    JournalChange s o next := by
  obtain ⟨changed, mutated, rfl, -⟩ := serial_ok succeeded
  have kept : (prune changed).journal = changed.journal := rfl
  cases mutate_journal mutated with
  | kept same => exact .kept (kept.trans same)
  | written entry wrote successor now => exact .written entry wrote successor (kept.trans now)
  | closed entry phase was now => exact .closed entry phase was (kept.trans now)
  | opened op opening seq opens foreign ahead now =>
      exact .opened op opening seq opens foreign ahead (kept.trans now)

/-- The numbers of the journal go up, and one number is one content. -/
def JournalForward (before after : AgentState) : Prop :=
  seqOf before ≤ seqOf after ∧ (seqOf before = seqOf after → after.journal = before.journal)

theorem JournalForward.refl (s : AgentState) : JournalForward s s :=
  ⟨le_refl _, fun _ => rfl⟩

theorem JournalForward.trans {first second third : AgentState}
    (earlier : JournalForward first second) (later : JournalForward second third) :
    JournalForward first third := by
  refine ⟨earlier.1.trans later.1, fun same => ?_⟩
  have middle : seqOf first = seqOf second := by
    have lower := earlier.1
    have upper := later.1
    omega
  rw [later.2 (middle.symm.trans same), earlier.2 middle]

theorem JournalChange.forward (change : JournalChange s o next) : JournalForward s next := by
  have grown (ahead : seqOf s < seqOf next) : JournalForward s next :=
    ⟨ahead.le, fun same => absurd same ahead.ne⟩
  cases change with
  | kept same =>
      refine ⟨?_, fun _ => same⟩
      rw [seqOf, seqOf, same]
  | written entry wrote successor now =>
      exact grown (by rw [seqOf_some now, successor]; exact Nat.lt_succ_self _)
  | closed entry phase was now =>
      exact grown (by rw [seqOf_some now, seqOf_some was]; exact Nat.lt_succ_self _)
  | opened op opening seq opens foreign ahead now =>
      exact grown (by rw [seqOf_some now]; exact ahead)

end Barycenter.Dp
