import Barycenter.Dp.AgentRuns

/-!
# Coordinates are entered once, by the owner of their slot

Along every run of the agent the coordinates move forward only, and whoever
enters an epoch owned its slot.

Ownership is judged by the canonical text of a tuple.  Different tuples can
share it, because ids and digests may contain the separator, so the result asks
that a commit never meets the canonical text of another tuple in its slot.
-/

namespace Barycenter.Dp

/-- A commit that is about to move its plane finds its own tuple in the slot,
and not another one with the same canonical text. -/
def SlotTold (s : AgentState) (o : AgentOp) : Prop :=
  ∀ op evidence, o = .commit op evidence →
    ∀ slot, Agent.Moves s op evidence slot → slot.op = op

/-- Every slot sits at its own epoch and leads forward. -/
def SlotsForward (s : AgentState) : Prop :=
  ∀ plane epoch slot, s.slot plane epoch = some slot →
    slot.op.plane = plane ∧ slot.op.target.activationEpoch = epoch ∧
      slot.op.expectedCurrent.activationEpoch < epoch

theorem slotsForward_initial : SlotsForward initial := by
  intro plane epoch slot found
  cases plane <;> simp [initial, AgentState.slot, PerPlane.get] at found

theorem SlotsFrom.forward {s next : AgentState} (from_ : SlotsFrom s next)
    (forward : SlotsForward s) : SlotsForward next := by
  intro plane epoch slot found
  rcases from_ plane epoch slot found with
    ⟨old, oldFound, same⟩ | ⟨here, at_, expected, ahead, -, -⟩
  · rw [← same]
    exact forward plane epoch old oldFound
  · refine ⟨here, at_, ?_⟩
    rw [← expected]
    exact ahead

variable {before after : AgentState}

theorem slotsForward_step {o : AgentOp} (step : AgentStep before o after)
    (forward : SlotsForward before) : SlotsForward after := by
  obtain ⟨reply, succeeded⟩ := step
  obtain ⟨changed, mutated, rfl, -⟩ := serial_ok succeeded
  exact (mutate_slotsFrom mutated).forward forward

def Enters (event : Event AgentState AgentOp) (plane : Plane) (epoch : Nat) : Prop :=
  (event.before.planes.get plane).activationEpoch ≠ epoch ∧
    (event.after.planes.get plane).activationEpoch = epoch

def CommitsOn (event : Event AgentState AgentOp) (plane : Plane) : Prop :=
  ∃ op evidence, event.label = .commit op evidence ∧ op.plane = plane

/-- Everything a commit that enters an epoch has behind it. -/
structure EnteredBy (event : Event AgentState AgentOp) (plane : Plane)
    (op : OperationTuple) (evidence : ActivationEvidence) : Prop where
  committed : event.label = .commit op evidence
  here : op.plane = plane
  reached : (event.after.planes.get plane).coordinate = op.target
  owned : ∃ slot, event.before.slot plane op.target.activationEpoch = some slot ∧
    slot.op = op ∧ slot.stagedDigest = some op.payloadDigest
  expected : (event.before.planes.get plane).coordinate = op.expectedCurrent
  proved : provesActivation (some evidence) op.targetGeneration = true
  recorded : event.after.activationEvidence.get?
    (evidenceKey plane op.target.activationEpoch) = some evidence
  signed : (event.after.planes.get plane).author = some op.author

inductive PlaneEvent (event : Event AgentState AgentOp) (plane : Plane) : Prop where
  | stayed (same : event.after.planes.get plane = event.before.planes.get plane)
  | entered (op : OperationTuple) (evidence : ActivationEvidence)
      (by_ : EnteredBy event plane op evidence)
      (forward : (event.before.planes.get plane).activationEpoch <
        op.target.activationEpoch)
  | revised
      (sameEpoch : (event.after.planes.get plane).activationEpoch =
        (event.before.planes.get plane).activationEpoch)
      (forward : (event.before.planes.get plane).membershipRevision <
        (event.after.planes.get plane).membershipRevision)
      (sameAuthor : (event.after.planes.get plane).author =
        (event.before.planes.get plane).author)

theorem moved_evidence (s : AgentState) (op : OperationTuple)
    (evidence : ActivationEvidence) :
    (prune (Agent.moved s op evidence)).activationEvidence.get?
      (evidenceKey op.plane op.target.activationEpoch) = some evidence := by
  have standing : ((Agent.moved s op evidence).planes.get op.plane).activationEpoch =
      op.target.activationEpoch := by
    simp [Agent.moved, record, finish, Agent.place, OperationTuple.placed,
      OperationTuple.reached]
  rw [prune_standingEvidence standing]
  simp [Agent.moved, record, finish, Agent.place]

theorem entered_recorded {op : OperationTuple} {evidence : ActivationEvidence} {ack : PlaneAck}
    (succeeded : serial (.commit op evidence) before = .ok (ack, after))
    (placed : after.planes.get op.plane = op.placed)
    (forward : (before.planes.get op.plane).activationEpoch < op.target.activationEpoch) :
    after.activationEvidence.get? (evidenceKey op.plane op.target.activationEpoch) =
      some evidence := by
  obtain ⟨changed, mutated, rfl, -⟩ := serial_ok succeeded
  obtain ⟨-, -, cases⟩ := Agent.commit_ok mutated
  have stayed : before.planes.get op.plane ≠ op.placed := by
    intro same
    rw [same] at forward
    exact absurd forward (Nat.lt_irrefl _)
  rcases cases with ⟨-, rfl⟩ | ⟨-, -, -, rfl⟩ | ⟨-, -, -, -, rfl⟩
  · exact absurd placed stayed
  · exact absurd placed stayed
  · exact moved_evidence before op evidence

theorem planeEvent_of_step {o : AgentOp} (step : AgentStep before o after)
    (forward : SlotsForward before) (told : SlotTold before o) (plane : Plane) :
    PlaneEvent { before := before, label := o, after := after } plane := by
  obtain ⟨reply, succeeded⟩ := step
  rcases serial_planes succeeded plane with
    same | ⟨op, evidence, slot, rfl, rfl, moves, placed⟩ | ⟨op, rfl, rfl, revises, changed⟩
  · exact .stayed same
  · have own : slot.op = op := told op evidence rfl slot moves
    have ahead : (before.planes.get op.plane).activationEpoch <
        op.target.activationEpoch := by
      have leads := (forward _ _ _ moves.found).2.2
      rw [own, ← moves.expected] at leads
      exact leads
    exact .entered op evidence
      { committed := rfl
        here := rfl
        reached := by rw [placed]; rfl
        owned := ⟨slot, moves.found, own, moves.staged⟩
        expected := moves.expected
        proved := moves.proved
        recorded := entered_recorded succeeded placed ahead
        signed := by rw [placed]; rfl } ahead
  · refine .revised ?_ ?_ ?_
    · exact (congrArg PlaneState.activationEpoch changed).trans revises.sameEpoch
    · exact revises.forward.trans_eq
        (congrArg PlaneState.membershipRevision changed).symm
    · exact (congrArg PlaneState.author changed).trans rfl

/-- Coordinates move forward, each epoch is entered at most once and by the
owner of its slot, and the signature lasts until the next commit. -/
structure CoordinateSafe (history : AgentHistory) : Prop where
  epochs : ∀ event ∈ history, ∀ plane,
    (event.before.planes.get plane).activationEpoch ≤
      (event.after.planes.get plane).activationEpoch
  revisions : ∀ event ∈ history, ∀ plane,
    (event.after.planes.get plane).activationEpoch =
        (event.before.planes.get plane).activationEpoch →
      (event.before.planes.get plane).membershipRevision ≤
        (event.after.planes.get plane).membershipRevision
  once : ∀ plane epoch,
    history.Pairwise fun first second =>
      Enters first plane epoch → ¬ Enters second plane epoch
  entering : ∀ event ∈ history, ∀ plane epoch, Enters event plane epoch →
    ∃ op evidence, op.target.activationEpoch = epoch ∧ EnteredBy event plane op evidence
  signature : ∀ plane earlier entry between last later op evidence,
    history = earlier ++ entry :: (between ++ last :: later) →
      EnteredBy entry plane op evidence →
      (∀ event ∈ between ++ [last], ¬ CommitsOn event plane) →
      (last.after.planes.get plane).author = some op.author

theorem PlaneEvent.epochs {event : Event AgentState AgentOp} {plane : Plane}
    (change : PlaneEvent event plane) :
    (event.before.planes.get plane).activationEpoch ≤
      (event.after.planes.get plane).activationEpoch := by
  cases change with
  | stayed same => rw [same]
  | entered op evidence by_ forward =>
      have reached := congrArg Coordinate.activationEpoch by_.reached
      change (event.after.planes.get plane).activationEpoch = _ at reached
      omega
  | revised sameEpoch forward sameAuthor => omega

theorem PlaneEvent.author {event : Event AgentState AgentOp} {plane : Plane}
    (change : PlaneEvent event plane) (idle : ¬ CommitsOn event plane) :
    (event.after.planes.get plane).author = (event.before.planes.get plane).author := by
  cases change with
  | stayed same => rw [same]
  | entered op evidence by_ forward =>
      exact absurd ⟨op, evidence, by_.committed, by_.here⟩ idle
  | revised sameEpoch forward sameAuthor => exact sameAuthor

theorem coordinateSafe_of_events {history : AgentHistory} {final : AgentState}
    (run : AgentRun history final)
    (events : ∀ event ∈ history, ∀ plane, PlaneEvent event plane) :
    CoordinateSafe history := by
  refine
    { epochs := fun event member plane => (events event member plane).epochs
      revisions := ?_
      once := ?_
      entering := ?_
      signature := ?_ }
  · intro event member plane sameEpoch
    cases events event member plane with
    | stayed same => rw [same]
    | entered op evidence by_ forward =>
        have reached := congrArg Coordinate.activationEpoch by_.reached
        change (event.after.planes.get plane).activationEpoch = _ at reached
        omega
    | revised _ forward _ => omega
  · intro plane epoch
    have ordered := (Follows.measure_ordered
      (fun s => (s.planes.get plane).activationEpoch) run
      fun event member => (events event member plane).epochs).2
    refine List.Pairwise.imp_of_mem ?_ ordered
    intro first second _ secondMember later enteredFirst enteredSecond
    have rising := (events second secondMember plane).epochs
    have here := enteredFirst.2
    have again := enteredSecond.2
    have outside := enteredSecond.1
    omega
  · intro event member plane epoch enters
    cases events event member plane with
    | stayed same =>
        exact absurd ((congrArg PlaneState.activationEpoch same).symm.trans enters.2)
          enters.1
    | entered op evidence by_ forward =>
        have reached := congrArg Coordinate.activationEpoch by_.reached
        exact ⟨op, evidence, reached.symm.trans enters.2, by_⟩
    | revised sameEpoch _ _ => exact absurd (sameEpoch.symm.trans enters.2) enters.1
  · intro plane earlier entry between last later op evidence shape by_ idle
    subst shape
    obtain ⟨start, -, rest⟩ := Follows.split run
    cases rest with
    | cons first rest =>
        have regroup : between ++ last :: later = (between ++ [last]) ++ later := by simp
        rw [regroup] at rest
        obtain ⟨stop, segment, -⟩ := Follows.split rest
        have kept := Follows.constant
          (fun s => (s.planes.get plane).author) segment ?_
        · obtain ⟨middle, -, final⟩ := Follows.split segment
          cases final with
          | cons _ ended =>
              cases ended
              exact kept.trans by_.signed
        · intro event member
          refine (events event ?_ plane).author (idle event member)
          simp only [List.mem_append, List.mem_singleton] at member
          simp only [List.mem_append, List.mem_cons]
          rcases member with inside | rfl
          · exact .inr (.inr (.inl inside))
          · exact .inr (.inr (.inr (.inl rfl)))

/-- **Coordinate safety.**  Along every run of agent operations in which no
commit meets the canonical text of another tuple. -/
theorem coordinate_safety {history : AgentHistory} {final : AgentState}
    (run : AgentRun history final)
    (told : ∀ event ∈ history, SlotTold event.before event.label) :
    CoordinateSafe history := by
  have steps := Follows.at_events run slotsForward_initial
    fun _ _ _ step => slotsForward_step step
  exact coordinateSafe_of_events run fun event member plane =>
    planeEvent_of_step (steps event member).1 (steps event member).2
      (told event member) plane

/-- The same canonical text, with the separator in one id or in the other. -/
def joinedLeft : Identity :=
  { operationId := "a|b", transitionId := "c", leaderToken := 1 }

def joinedRight : Identity :=
  { operationId := "a", transitionId := "b|c", leaderToken := 1 }

/-- The second identity enters the epoch out of the first one's slot, and signs
it. -/
theorem coordinate_entered_from_foreign_slot :
    ∃ history final, AgentRun history final ∧ ¬ CoordinateSafe history := by
  obtain ⟨history, final, run, labels, taken⟩ := exists_run_of_performAll
    ([.reserve (plainTuple joinedLeft .http 0 5),
      .stage (plainTuple joinedLeft .http 0 5),
      .commit (plainTuple joinedRight .http 0 5) (plainEvidence 5)])
    (fun history _ => history.getLast?.any fun event =>
      (event.before.slot .http 5).map Reservation.op =
          some (plainTuple joinedLeft .http 0 5)
        && event.label = .commit (plainTuple joinedRight .http 0 5) (plainEvidence 5)
        && (event.before.planes.get .http).activationEpoch = 0
        && (event.after.planes.get .http).activationEpoch = 5)
    (by decide +kernel)
  refine ⟨history, final, run, ?_⟩
  intro safe
  obtain ⟨event, last, facts⟩ := (Option.any_eq_true _ _).mp taken
  simp only [Bool.and_eq_true, decide_eq_true_eq] at facts
  obtain ⟨⟨⟨foreign, label⟩, was⟩, now⟩ := facts
  obtain ⟨op, evidence, -, by_⟩ := safe.entering event (List.mem_of_getLast? last)
    .http 5 ⟨by rw [was]; decide, now⟩
  have committed := by_.committed
  rw [label, AgentOp.commit.injEq] at committed
  obtain ⟨rfl, rfl⟩ := committed
  obtain ⟨slot, found, own, -⟩ := by_.owned
  rw [show event.before.slot .http 5 = some slot from found, Option.map_some, own] at foreign
  exact absurd foreign (by decide +kernel)

theorem coordinate_safety_of_plain_commit :
    ∃ history final, AgentRun history final ∧
      history.map Event.label =
        [.reserve (plainTuple joinedLeft .http 0 5),
          .stage (plainTuple joinedLeft .http 0 5),
          .commit (plainTuple joinedLeft .http 0 5) (plainEvidence 5)] ∧
      CoordinateSafe history := by
  obtain ⟨history, final, run, labels, own⟩ := exists_run_of_performAll
    ([.reserve (plainTuple joinedLeft .http 0 5),
      .stage (plainTuple joinedLeft .http 0 5),
      .commit (plainTuple joinedLeft .http 0 5) (plainEvidence 5)])
    (fun history _ => history.all fun event =>
      match event.label with
      | .commit op _ =>
          (event.before.slot op.plane op.target.activationEpoch).map Reservation.op = some op
      | _ => true)
    (by decide +kernel)
  refine ⟨history, final, run, labels, coordinate_safety run ?_⟩
  intro event member op evidence label slot moves
  have checked := List.all_eq_true.mp own event member
  rw [label] at checked
  simpa [moves.found] using checked

end Barycenter.Dp
