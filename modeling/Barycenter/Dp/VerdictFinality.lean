import Barycenter.Dp.AgentRecords
import Barycenter.Dp.AgentRuns

/-!
# Giving up is final

A transition that was aborted or failed is refused as long as its record is
there.  The record may be trimmed, and then the refusal has to come from
elsewhere: a newer leader, or an epoch that was passed by a transition that
left neither a slot nor a cached answer behind.  Both of these last.
-/

namespace Barycenter.Dp

open Outcome

/-- Its epoch was passed, and neither its slot nor an answer to it is left. -/
structure Bygone (s : AgentState) (t : OperationTuple) : Prop where
  passed : t.target.activationEpoch < (s.planes.get t.plane).activationEpoch
  unowned : ∀ slot, s.slot t.plane t.target.activationEpoch = some slot →
    canonical slot.op ≠ canonical t
  unanswered : ∀ step seen, s.completed.get? (key t step) = some seen →
    seen.tuple ≠ canonical t

/-- The tuple cannot be taken up again, record or not. -/
def Spent (s : AgentState) (t : OperationTuple) : Prop :=
  t.leaderToken < s.maxLeaderToken ∨ Bygone s t

def Forbidden (s : AgentState) (t : OperationTuple) : Prop :=
  GivenUp s t.identity t.plane ∨ Spent s t

variable {s : AgentState} {t : OperationTuple}

theorem Bygone.not_grounded (bygone : Bygone s t) :
    ¬ Grounded s t := by
  rintro ((⟨slot, found, same⟩ | ahead) | standing)
  · exact bygone.unowned slot found same
  · exact absurd bygone.passed (Nat.not_lt.mpr ahead.le)
  · exact absurd bygone.passed (Nat.not_lt.mpr standing.le)

variable {next : AgentState}

theorem Spent.later (spent : Spent s t)
    (newest : s.maxLeaderToken ≤ next.maxLeaderToken)
    (epochs : (s.planes.get t.plane).activationEpoch ≤
      (next.planes.get t.plane).activationEpoch)
    (slots : SlotsFrom s next) (answers : AnswersFrom s next) : Spent next t := by
  rcases spent with stale | bygone
  · exact .inl (stale.trans_le newest)
  · refine .inr
      { passed := bygone.passed.trans_le epochs
        unowned := ?_
        unanswered := ?_ }
    · intro slot found
      rcases slots _ _ slot found with ⟨old, oldFound, same⟩ | ⟨-, -, -, forward, -, -⟩
      · rw [← same]
        exact bygone.unowned old oldFound
      · exact absurd forward (Nat.not_lt.mpr bygone.passed.le)
    · intro step seen found
      rcases answers _ seen found with before | ⟨op, other, at_, text, grounds, -⟩
      · exact bygone.unanswered step seen before
      · intro same
        obtain ⟨-, samePlane, -, sameTarget⟩ := same_request at_.symm (text.symm.trans same)
        refine bygone.not_grounded ?_
        rw [Grounded, Claims, samePlane, sameTarget, ← text, same] at grounds
        exact grounds

theorem VerdictsFrom.givenUp (verdicts : VerdictsFrom s next)
    {who : Identity} {plane : Plane} (givenUp : GivenUp s who plane) :
    GivenUp next who plane :=
  givenUp.imp verdicts.terminalOf verdicts.terminalOf

theorem Forbidden.later (forbidden : Forbidden s t) (verdicts : VerdictsFrom s next)
    (newest : s.maxLeaderToken ≤ next.maxLeaderToken)
    (epochs : (s.planes.get t.plane).activationEpoch ≤
      (next.planes.get t.plane).activationEpoch)
    (slots : SlotsFrom s next) (answers : AnswersFrom s next) : Forbidden next t :=
  forbidden.imp verdicts.givenUp fun spent => spent.later newest epochs slots answers

/-- Whoever is let in with a forbidden tuple finds neither an answer nor
grounds for one. -/
theorem Forbidden.shut (forbidden : Forbidden s t)
    (newest : s.maxLeaderToken ≤ t.leaderToken)
    (alive : ¬ GivenUp s t.identity t.plane) :
    (∀ step ack, ¬ Replays s t step ack) ∧ ¬ Grounded s t := by
  rcases forbidden with givenUp | stale | bygone
  · exact absurd givenUp alive
  · exact absurd stale (Nat.not_lt.mpr newest)
  · refine ⟨?_, bygone.not_grounded⟩
    rintro step ack ⟨seen, found, same, -⟩
    exact bygone.unanswered step seen found same

theorem reserve_refused (forbidden : Forbidden s t)
    (result : PlaneAck × AgentState) : Agent.reserve t s ≠ .ok result := by
  intro reserved
  obtain ⟨newest, alive, cases⟩ := Agent.reserve_ok reserved
  obtain ⟨unanswered, groundless⟩ := forbidden.shut newest alive
  rcases cases with ⟨replays, -⟩ | ⟨-, -, slot, taken, acquired, -⟩
  · exact unanswered _ _ replays
  · exact groundless (.inl (acquire_claims acquired).2)

theorem stage_refused (forbidden : Forbidden s t)
    (result : PlaneAck × AgentState) : Agent.stage t s ≠ .ok result := by
  intro staged
  obtain ⟨newest, alive, cases⟩ := Agent.stage_ok staged
  obtain ⟨unanswered, groundless⟩ := forbidden.shut newest alive
  rcases cases with ⟨replays, -⟩ | ⟨-, -, slot, taken, acquired, -⟩
  · exact unanswered _ _ replays
  · exact groundless (.inl (acquire_claims acquired).2)

theorem commit_refused (forbidden : Forbidden s t)
    (evidence : ActivationEvidence) (result : PlaneAck × AgentState) :
    Agent.commit t evidence s ≠ .ok result := by
  intro committed
  obtain ⟨newest, alive, cases⟩ := Agent.commit_ok committed
  obtain ⟨unanswered, groundless⟩ := forbidden.shut newest alive
  rcases cases with ⟨replays, -⟩ | ⟨-, standing, -, -⟩ | ⟨-, -, ⟨slot, moves⟩, -, -⟩
  · exact unanswered _ _ replays
  · exact groundless <| .inr <|
      congrArg Coordinate.activationEpoch (Agent.alreadyThere_iff.mp standing).1
  · exact groundless (.inl (.inl ⟨slot, moves.found, moves.owned⟩))

theorem applyHealth_refused (forbidden : Forbidden s t) (result : PlaneAck × AgentState) :
    Agent.applyHealth t s ≠ .ok result := by
  intro applied
  obtain ⟨newest, alive, cases⟩ := Agent.applyHealth_ok applied
  obtain ⟨unanswered, groundless⟩ := forbidden.shut newest alive
  rcases cases with ⟨replays, -⟩ | ⟨-, revises, -, -⟩
  · exact unanswered _ _ replays
  · exact groundless (.inr revises.sameEpoch.symm)

/-- The envelope names the plane of the tuple, with this tuple. -/
def NamesTuple (op : ApplyOperation) (t : OperationTuple) : Prop :=
  t.plane ∈ planesOf op ∧ tupleFor op t.plane = .ok t

theorem reserveAll_refused {op : ApplyOperation}
    {opening : Option JournalOpening} (forbidden : Forbidden s t) (names : NamesTuple op t)
    (result : List PlaneAck × AgentState) : Agent.reserveAll op opening s ≠ .ok result := by
  intro reserved
  obtain ⟨tuples, swept, taken, extracted, -, -, -, sweeping, walked, -⟩ :=
    Agent.reserveAll_ok reserved
  obtain ⟨tuple, member, -, found⟩ := Agent.mem_tuplesOf extracted names.1
  have same : tuple = t := Except.ok.inj (found.symm.trans names.2)
  subst same
  obtain ⟨planes, -, newest, slots⟩ := sweepOrphan_only sweeping
  have swept_forbidden : Forbidden swept tuple :=
    forbidden.later (sweepOrphan_verdictsFrom sweeping) newest.ge (by rw [planes]) slots
      (.of_same (sweepOrphan_completed sweeping))
  have reached :=
    traverse_reaches (fun current => Forbidden current tuple) ?_ swept_forbidden walked member
  · obtain ⟨middle, ack, next, still, stepped⟩ := reached
    exact reserve_refused still _ stepped
  · intro other _ current ack next forbidden step
    have slots := Agent.reserve_slotsFrom step
    have answers := Agent.reserve_answersFrom step
    obtain ⟨_, _, _, raised, rfl⟩ := Agent.reserve_only step
    exact forbidden.later (.of_same rfl) raised (le_refl _) slots answers

def Carries : AgentOp → OperationTuple → Prop
  | .reserve op, t | .stage op, t | .commit op _, t | .applyHealth op, t => op = t
  | .reserveAll op _, t => NamesTuple op t
  | _, _ => False

variable {o : AgentOp}

theorem mutate_refused
    (forbidden : Forbidden s t) (carries : Carries o t) (result : o.Reply × AgentState) :
    o.mutate s ≠ .ok result := by
  cases o with
  | reserve op =>
      cases carries
      exact reserve_refused forbidden result
  | stage op =>
      cases carries
      exact stage_refused forbidden result
  | commit op evidence =>
      cases carries
      exact commit_refused forbidden evidence result
  | applyHealth op =>
      cases carries
      exact applyHealth_refused forbidden result
  | reserveAll op opening => exact reserveAll_refused forbidden carries result
  | _ => exact carries.elim

theorem serial_refused (forbidden : Forbidden s t) (carries : Carries o t) :
    ∃ rejection, serial o s = .error (.rejection rejection) :=
  serial_rejected (mutate_refused forbidden carries)

theorem prune_completed {name : String} {seen : CompletedStep}
    (found : (prune s).completed.get? name = some seen) :
    s.completed.get? name = some seen := by
  simp only [prune, pruneCompleted, OrderedMap.get?_without] at found
  split at found
  · cases found
  · exact found

theorem serial_epochs {reply : o.Reply}
    (succeeded : serial o s = .ok (reply, next)) (plane : Plane) :
    (s.planes.get plane).activationEpoch ≤ (next.planes.get plane).activationEpoch := by
  obtain ⟨-, -, -, guarded⟩ := serial_ok succeeded
  have clause := firstViolation_eq_none.mp guarded (coordinateDoesNotRewind s next plane) <| by
    simp only [stepClauses, List.mem_append, List.mem_map]
    exact .inr (.inl (.inl (.inl (.inl (.inr ⟨plane, Plane.mem_all plane, rfl⟩)))))
  simpa [coordinateDoesNotRewind] using clause

/-- The trimming at the end of a step takes the record of a given-up tuple away
only when the tuple is spent. -/
def TrimSpares (event : Event AgentState AgentOp) (t : OperationTuple) : Prop :=
  ∀ reply changed, event.label.mutate event.before = .ok (reply, changed) →
    GivenUp changed t.identity t.plane → Forbidden event.after t

theorem forbidden_step {before after : AgentState} (step : AgentStep before o after)
    (spares : TrimSpares { before := before, label := o, after := after } t)
    (forbidden : Forbidden before t) : Forbidden after t := by
  obtain ⟨reply, succeeded⟩ := step
  obtain ⟨changed, mutated, rfl, -⟩ := serial_ok succeeded
  rcases forbidden with givenUp | spent
  · exact spares reply changed mutated ((mutate_verdictsFrom mutated).givenUp givenUp)
  · have slots := mutate_slotsFrom mutated
    exact .inr <| spent.later (serial_newest succeeded) (serial_epochs succeeded t.plane)
      slots fun name seen found =>
        mutate_answersFrom mutated name seen (prune_completed found)

/-- The event acknowledged that the tuple is over: it was aborted, failed, or
stamped by whoever took its orphaned journal over. -/
inductive GivesUp (event : Event AgentState AgentOp) (t : OperationTuple) : Prop where
  | aborted (label : event.label = .abort t)
  | failed (label : event.label = .fail t)
  | stamped (op : ApplyOperation) (opening : Option JournalOpening) (stale : JournalEntry)
      (label : event.label = .reserveAll op opening)
      (orphan : event.before.journal = some stale) (names : NamesTuple stale.op t)
      (stamp : terminalOf event.after t.identity t.plane = some .aborted)

theorem finish_ended (s : AgentState) (op : OperationTuple) (how : TerminalKind) :
    terminalOf (finish s op how) op.identity op.plane = some how := by
  simp [terminalOf, finish]

theorem finalize_ended {op : OperationTuple} {how : TerminalKind}
    (finalized : finalize s op how = .ok next) :
    terminalOf next op.identity op.plane = some how := by
  obtain ⟨-, cases⟩ := Agent.finalize_ok finalized
  rcases cases with ⟨ended, rfl⟩ | ⟨-, rfl⟩
  · rw [terminalOf_raise]
    exact ended
  · exact finish_ended _ op how

theorem GivesUp.forbidden {before after : AgentState}
    (gives : GivesUp { before := before, label := o, after := after } t)
    (step : AgentStep before o after)
    (spares : TrimSpares { before := before, label := o, after := after } t) :
    Forbidden after t := by
  obtain ⟨reply, succeeded⟩ := step
  obtain ⟨changed, mutated, -, -⟩ := serial_ok succeeded
  cases gives with
  | aborted label =>
      obtain rfl : o = .abort t := label
      exact spares reply changed mutated (.inl (finalize_ended (Agent.abort_ok mutated)))
  | failed label =>
      obtain rfl : o = .fail t := label
      exact spares reply changed mutated (.inr (finalize_ended (Agent.fail_ok mutated)))
  | stamped op opening stale label orphan names stamp => exact .inl (.inl stamp)

/-- **Giving up is final**, in every run whose trimming spares the records of
tuples that could still be taken up. -/
theorem verdict_is_final {history earlier later : AgentHistory} {final : AgentState}
    {given : Event AgentState AgentOp} {t : OperationTuple}
    (run : AgentRun history final) (shape : history = earlier ++ given :: later)
    (gives : GivesUp given t) (spares : ∀ event ∈ given :: later, TrimSpares event t)
    {o : AgentOp} (carries : Carries o t) :
    ∃ rejection, serial o final = .error (.rejection rejection) := by
  subst shape
  obtain ⟨start, -, rest⟩ := Follows.split run
  refine serial_refused ?_ carries
  cases rest with
  | cons first continued =>
      have ended := gives.forbidden first (spares _ List.mem_cons_self)
      refine Follows.invariant_along (fun s => Forbidden s t) continued ended ?_
      intro event member step forbidden
      exact forbidden_step step (spares event (List.mem_cons_of_mem _ member)) forbidden

def abandoned : Identity :=
  { operationId := "a", transitionId := "t", leaderToken := 1 }

def passerby : Identity :=
  { operationId := "b", transitionId := "u", leaderToken := 1 }

/-- Another transition passes the epoch, the record of the abort is trimmed, and
the answer to the old reservation comes back. -/
theorem aborted_answer_returns :
    ∃ history earlier given later final,
      AgentRun history final ∧ history = earlier ++ given :: later ∧
        GivesUp given (plainTuple abandoned .http 0 1) ∧
        ∃ ack next, serial (.reserve (plainTuple abandoned .http 0 1)) final =
          .ok (ack, next) := by
  obtain ⟨history, final, run, labels, answered⟩ := exists_run_of_performAll
    ([.reserve (plainTuple abandoned .http 0 1),
      .abort (plainTuple abandoned .http 0 1),
      .stage (plainTuple passerby .http 0 2),
      .commit (plainTuple passerby .http 0 2) (plainEvidence 2)])
    (fun _ final =>
      (serial (.reserve (plainTuple abandoned .http 0 1)) final).isOk)
    (by decide +kernel)
  obtain ⟨first, rest, rfl, -, labels⟩ := List.map_eq_cons_iff.mp labels
  obtain ⟨given, later, rfl, label, -⟩ := List.map_eq_cons_iff.mp labels
  refine ⟨_, [first], given, later, final, run, rfl, .aborted label, ?_⟩
  cases performed : serial (.reserve (plainTuple abandoned .http 0 1)) final with
  | error thrown => simp [performed, Except.isOk, Except.toBool] at answered
  | ok result => exact ⟨result.1, result.2, rfl⟩

theorem verdict_is_final_after_abort :
    ∃ history final, AgentRun history final ∧
      history.map Event.label =
        [.reserve (plainTuple abandoned .http 0 1),
          .abort (plainTuple abandoned .http 0 1)] ∧
      ∃ rejection, serial (.stage (plainTuple abandoned .http 0 1)) final =
        .error (.rejection rejection) := by
  obtain ⟨history, final, run, labels, recorded⟩ := exists_run_of_performAll
    ([.reserve (plainTuple abandoned .http 0 1),
      .abort (plainTuple abandoned .http 0 1)])
    (fun history _ => history.getLast?.any fun event =>
      terminalOf event.after abandoned .http = some .aborted)
    (by decide +kernel)
  refine ⟨history, final, run, labels, ?_⟩
  obtain ⟨first, rest, rfl, -, labels⟩ := List.map_eq_cons_iff.mp labels
  obtain ⟨given, later, rfl, label, labels⟩ := List.map_eq_cons_iff.mp labels
  obtain rfl := List.map_eq_nil_iff.mp labels
  refine @verdict_is_final _ [first] [] final given (plainTuple abandoned .http 0 1) run rfl
    (.aborted label) ?_ (.stage (plainTuple abandoned .http 0 1)) rfl
  intro event member
  obtain rfl := List.mem_singleton.mp member
  intro _ _ _ _
  exact .inl (.inl (of_decide_eq_true recorded))

end Barycenter.Dp
