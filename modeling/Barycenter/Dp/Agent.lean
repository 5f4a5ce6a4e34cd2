import Barycenter.Dp.AgentInvariants

/-!
# The data-plane agent

Every operation of the agent is a synchronous function from the durable state to
a reply and the next state.  `serial` is the only way a state reaches the store:
it runs the function, trims what has grown, and checks the guard.
-/

namespace Barycenter.Dp

namespace Agent

def unit (next : Except DpRejection AgentState) : Except DpRejection (Unit × AgentState) := do
  let s ← next
  return ((), s)

/-- Fencing is succession: the path of a holder with a lower token is taken
away. -/
def fence (leaderToken : Numeral) (s : AgentState) :
    Except DpRejection (Nat × AgentState) := do
  let token := normalizeNumeric leaderToken
  assertLeader s token
  let fenced := { s with maxLeaderToken := token }
  match fenced.activeOperation with
  | none => return (token, fenced)
  | some holder =>
      if holder.leaderToken < token then return (token, supersede fenced holder)
      else return (token, fenced)

def reserve (op : OperationTuple) (s : AgentState) :
    Except DpRejection (PlaneAck × AgentState) := do
  let (replay, admitted) ← admitOp s op .reserve
  match replay with
  | some ack => return (ack, admitted)
  | none =>
      let (_, taken) ← acquire admitted op
      return (ackOf op op.reached, record taken op .reserve op.reached)

/-- Put a payload on the slot, taking the slot when there is none yet. -/
def stage (op : OperationTuple) (s : AgentState) :
    Except DpRejection (PlaneAck × AgentState) := do
  let (replay, admitted) ← admitOp s op .stage
  match replay with
  | some ack => return (ack, admitted)
  | none =>
      let (slot, taken) ← acquire admitted op
      let staged := taken.setSlot op.plane op.target.activationEpoch
        { slot with stagedDigest := some op.payloadDigest }
      return (ackOf op op.reached, record staged op .stage op.reached)

/-- Place the coordinate with its signature and its evidence, and open the
candidate.  What completes the candidate is what the holder declared, when the
holder is this transition. -/
def place (s : AgentState) (op : OperationTuple) (evidence : ActivationEvidence) :
    AgentState :=
  { s with
    planes := s.planes.set op.plane
      { op.reached with author := some (op.author) }
    activationEvidence :=
      s.activationEvidence.set (evidenceKey op.plane op.target.activationEpoch) evidence
    pendingEpochs :=
      match s.activeOperation with
      | some holder =>
          if holder.identity = op.identity then some holder.epochs else s.pendingEpochs
      | none => s.pendingEpochs
    pendingActivation := some (op.candidate) }

/-- The coordinate is where the request wants it already, by the request's own
signature. -/
def alreadyThere (s : AgentState) (op : OperationTuple) : Bool :=
  let current := s.planes.get op.plane
  sameCoordinate current.coordinate op.target
    && current.payloadDigest = op.payloadDigest
    && authoredBy current op.identity

/-- The slot a commit needs: its own, on the coordinate it expects, and staged
with its digest. -/
def committableSlot (s : AgentState) (op : OperationTuple) :
    Except DpRejection Reservation :=
  match s.slot op.plane op.target.activationEpoch with
  | none =>
      .error { kind := .notStaged
               message := s!"epoch {op.target.activationEpoch} 는 staging 되지 않았다" }
  | some slot =>
      if canonical slot.op ≠ canonical op then
        .error { kind := .slotTaken
                 message := s!"({op.plane.text}, {op.target.activationEpoch}) 는 " ++
                   s!"{transitionKey slot.op.identity slot.op.plane} 의 것이다" }
      else if !sameCoordinate (s.planes.get op.plane).coordinate op.expectedCurrent then
        .error { kind := .coordinateMismatch
                 message := s!"{op.plane.text} 좌표가 기대와 다르다" }
      else
        match slot.stagedDigest with
        | none =>
            .error { kind := .notStaged
                     message := s!"epoch {op.target.activationEpoch} 는 " ++
                       "예약만 됐고 payload 가 없다" }
        | some staged =>
            if staged ≠ op.payloadDigest then
              .error { kind := .digestMismatch
                       message := "staged digest 가 다르다" }
            else .ok slot

/-- Move the coordinate.  It does not move without evidence. -/
def commit (op : OperationTuple) (evidence : ActivationEvidence) (s : AgentState) :
    Except DpRejection (PlaneAck × AgentState) := do
  let (replay, admitted) ← admitOp s op .commit
  match replay with
  | some ack => return (ack, admitted)
  | none =>
      let current := admitted.planes.get op.plane
      if alreadyThere admitted op then
        return (ackOf op current, record admitted op .commit current)
      else
        let _ ← committableSlot admitted op
        if !provesActivation (some evidence) op.targetGeneration then
          .error { kind := .notActivated
                   message := s!"증거가 세대 '{op.targetGeneration}' 의 활성화를 " ++
                     s!"증명하지 못한다: {evidence.json}" }
        else
          let finished := finish (place admitted op evidence) op .activated
          return (ackOf op op.placed, record finished op .commit op.placed)

def abort (op : OperationTuple) (s : AgentState) :
    Except DpRejection (Unit × AgentState) :=
  unit (finalize s op .aborted)

def fail (op : OperationTuple) (s : AgentState) :
    Except DpRejection (Unit × AgentState) :=
  unit (finalize s op .failed)

/-- Forget the cached answers of every step of a tuple. -/
def forget (s : AgentState) (op : OperationTuple) : AgentState :=
  { s with
    completed := [Step.reserve, .stage, .commit, .health].foldl
      (fun completed step => completed.erase (key op step)) s.completed }

/-- Undo a transition that has not started, so that it may be tried again. -/
def release (op : OperationTuple) (s : AgentState) :
    Except DpRejection (Unit × AgentState) := do
  assertLeader s op.leaderToken
  if (terminalOf s op.identity op.plane).isSome then return ((), s)
  else return ((), forget (withoutOwnSlot s op) op)

/-- Health moves the revision inside the current epoch and keeps the signature
of the commit that entered it. -/
def applyHealth (op : OperationTuple) (s : AgentState) :
    Except DpRejection (PlaneAck × AgentState) := do
  let (replay, admitted) ← admitOp s op .health
  match replay with
  | some ack => return (ack, admitted)
  | none =>
      let current := admitted.planes.get op.plane
      if !sameCoordinate current.coordinate op.expectedCurrent
          || op.target.activationEpoch ≠ current.activationEpoch then
        .error { kind := .coordinateMismatch
                 message := "헬스 델타는 현재 epoch 안에서만 적용된다" }
      else if op.target.membershipRevision ≤ current.membershipRevision then
        .error { kind := .epochNotMonotonic
                 message := "membership_revision 은 앞으로만 간다" }
      else
        let revised := { op.reached with author := current.author }
        let moved := { admitted with planes := admitted.planes.set op.plane revised }
        return (ackOf op revised, record moved op .health revised)

/-- Leave the intent behind before publishing.  A stale leader may not even
intend. -/
def recordPublishIntent (record : PublishRecord) (s : AgentState) :
    Except DpRejection (Unit × AgentState) := do
  assertLeader s (normalizeNumeric record.leaderToken)
  return ((), { s with lastPublishIntent := some record })

/-- Give back every slot the holder took, and the right with them. -/
def releaseHolderSlots (op : ApplyOperation) (s : AgentState) :
    Except DpRejection (Unit × AgentState) :=
  match s.activeOperation with
  | none => .ok ((), s)
  | some holder =>
      if holder.identity ≠ op.identity then .ok ((), s)
      else
        .ok ((), { releaseHeld s op.identity holder.epochs holder.planes with
          activeOperation := none })

/-- Give back the slots an operation left behind when nobody holds the path. -/
def releaseStaleSlots (op : ApplyOperation) (s : AgentState) :
    Except DpRejection (Unit × AgentState) :=
  match s.activeOperation with
  | some _ => .ok ((), s)
  | none => .ok ((), releaseHeld s op.identity (epochsOf op) (planesOfOperation op))

/-- Close the journal of an abandoned operation.  A caller that read no journal
has no phase to close it with. -/
def closeJournal (op : ApplyOperation) (how : Option ApplyPhase) (s : AgentState) :
    Except DpRejection (Unit × AgentState) :=
  match s.journal, how with
  | some entry, some phase =>
      if !ownsJournal s.journal op then .ok ((), s)
      else if isTerminalPhase entry.phase then .ok ((), s)
      else .ok ((), { s with journal := some (entry.closedAs phase) })
  | _, _ => .ok ((), s)

/-- Take the slots of the listed planes away, whoever owns them. -/
def dropSlots (epochs : PerPlane (Option Nat)) :
    List Plane → PerPlane (OrderedMap Nat Reservation) →
      PerPlane (OrderedMap Nat Reservation)
  | [], reservations => reservations
  | plane :: rest, reservations =>
      match epochs.get plane with
      | none => dropSlots epochs rest reservations
      | some epoch =>
          dropSlots epochs rest
            (reservations.set plane ((reservations.get plane).erase epoch))

def releaseIdleHolder (s : AgentState) : Except DpRejection (Bool × AgentState) :=
  match s.activeOperation with
  | none => .ok (false, s)
  | some holder =>
      if s.journal.isSome then .ok (false, s)
      else
        .ok (true, { s with
          reservations := dropSlots holder.epochs holder.planes s.reservations
          activeOperation := none })

/-- The right as an operation that was taken up again holds it. -/
def holderOf (op : ApplyOperation) : ActiveOperation :=
  { operationId := op.operationId
    transitionId := op.transitionId
    leaderToken := normalizeNumeric op.leaderToken
    planes := planesOfOperation op
    epochs := epochsOf op }

/-- Take the right again for a journal that lost its holder. -/
def reclaimOperation (op : ApplyOperation) (s : AgentState) :
    Except DpRejection (Bool × AgentState) :=
  match s.activeOperation with
  | some _ => .ok (false, s)
  | none => do
      assertLeader s (normalizeNumeric op.leaderToken)
      return (true, { s with activeOperation := some (holderOf op) })

/-- Give back the slot of one plane of an operation when it is the operation's
own. -/
def releasePlane (op : ApplyOperation) (plane : Plane) (s : AgentState) :
    Except DpRejection (Unit × AgentState) := do
  let tuple ← tupleFor op plane
  return ((), withoutOwnSlot s tuple)

def finishOperation (op : ApplyOperation) (releasePlanes : List Plane) (s : AgentState) :
    Except DpRejection (Unit × AgentState) := do
  let settled := finalizeCandidate s op.identity
  let (_, freed) ← Outcome.traverse (releasePlane op) releasePlanes settled
  return ((), vacate freed op.identity)

/-- Write a phase of the journal: under the newest token, by the holder, and
only as the successor of the entry that is there. -/
def writeJournal (entry : JournalEntry) (s : AgentState) :
    Except DpRejection (Unit × AgentState) := do
  assertLeader s (normalizeNumeric entry.op.leaderToken)
  let mine := s.activeOperation.any fun holder =>
    sameTransitionName holder.identity entry.op.identity
  if !mine then
    .error { kind := .notReserved
             message := s!"{entry.op.operationId}:{entry.op.transitionId} 는 " ++
               "apply 경로를 쥐고 있지 않다" }
  else
    let expected := (s.journal.map JournalEntry.seq).getD 0 + 1
    if entry.seq ≠ expected then
      .error { kind := .journalConflict
               message := s!"저널이 앞으로 갔다: seq {expected} 를 기대했는데 " ++
                 s!"{entry.seq} 가 왔다" }
    else return ((), { s with journal := some entry })

/-- The path is free for an operation when nobody holds it, or a holder of the
same name does.  The token is left out so that a successor may take over. -/
def assertPathFree (s : AgentState) (op : ApplyOperation) : Except DpRejection Unit :=
  match s.activeOperation with
  | none => .ok ()
  | some holder =>
      if sameTransitionName holder.identity op.identity then .ok ()
      else
        .error { kind := .operationInFlight
                 message := s!"{holder.operationId}:{holder.transitionId} 가 " ++
                   "apply 경로를 쥐고 있다" }

/-- Stamp one plane of an orphaned operation as aborted, unless it ended before
or the key is one of the caller's own. -/
def stampOrphan (stale : ApplyOperation) (mine : List String) (plane : Plane)
    (s : AgentState) : Except DpRejection (Unit × AgentState) := do
  let tuple ← tupleFor stale plane
  let name := transitionKey tuple.identity plane
  if (terminalOf s tuple.identity plane).isNone && !mine.contains name then
    return ((), s.setTerminal name .aborted)
  else return ((), s)

def tuplesOf (op : ApplyOperation) : Except DpRejection (List OperationTuple) :=
  (planesOf op).mapM (tupleFor op)

def declaredEpochs (tuples : List OperationTuple) : PerPlane (Option Nat) :=
  tuples.foldl (fun epochs tuple => epochs.set tuple.plane (some tuple.target.activationEpoch))
    { http := none, stream := none }

/-- The right of an operation over the planes of its tuples. -/
def holderWith (op : ApplyOperation) (tuples : List OperationTuple) : ActiveOperation :=
  { operationId := op.operationId
    transitionId := op.transitionId
    leaderToken := normalizeNumeric op.leaderToken
    planes := tuples.map OperationTuple.plane
    epochs := declaredEpochs tuples }

/-- Clear away the journal of another operation that never ended: stamp its
planes as aborted and take its slots, journal and candidate over. -/
def sweepOrphan (op : ApplyOperation) (tuples : List OperationTuple)
    (opening : Option JournalOpening) (s : AgentState) : Except DpRejection AgentState :=
  match opening, s.journal with
  | some _, some stale =>
      if ownsJournal s.journal op || isTerminalPhase stale.phase then .ok s
      else do
        let mine := tuples.map fun tuple => transitionKey tuple.identity tuple.plane
        let (_, stamped) ← Outcome.traverse (stampOrphan stale.op mine) (planesOf stale.op) s
        let staleTuples ← tuplesOf stale.op
        return supersede stamped (holderWith stale.op staleTuples)
  | _, _ => .ok s

/-- Open the journal together with the right, unless the operation is already
the one in the journal. -/
def openJournal (op : ApplyOperation) (opening : Option JournalOpening) (s : AgentState) :
    AgentState :=
  match opening with
  | none => s
  | some opening =>
      if ownsJournal s.journal op then s
      else
        { s with
          journal := some
            { opening with seq := (s.journal.map JournalEntry.seq).getD 0 + 1 } }

/-- Take every plane and the right in one critical section, all or nothing. -/
def reserveAll (op : ApplyOperation) (opening : Option JournalOpening) (s : AgentState) :
    Except DpRejection (List PlaneAck × AgentState) := do
  let tuples ← tuplesOf op
  match tuples with
  | [] =>
      .error { kind := .emptyEnvelope
               message := "봉투가 어떤 평면도 말하지 않았다" }
  | first :: _ =>
      assertLeader s first.leaderToken
      assertPathFree s op
      let swept ← sweepOrphan op tuples opening s
      let (acks, reserved) ← Outcome.traverse reserve tuples swept
      let held := { reserved with activeOperation := some (holderWith op tuples) }
      return (acks, openJournal op opening held)

end Agent

/-- The operations of the agent that write the durable state. -/
inductive AgentOp where
  | fence (leaderToken : Numeral)
  | reserveAll (op : ApplyOperation) (opening : Option JournalOpening)
  | reserve (op : OperationTuple)
  | stage (op : OperationTuple)
  | commit (op : OperationTuple) (evidence : ActivationEvidence)
  | abort (op : OperationTuple)
  | release (op : OperationTuple)
  | fail (op : OperationTuple)
  | applyHealth (op : OperationTuple)
  | recordPublishIntent (record : PublishRecord)
  | releaseHolderSlots (op : ApplyOperation)
  | releaseStaleSlots (op : ApplyOperation)
  | closeJournal (op : ApplyOperation) (how : Option ApplyPhase)
  | releaseIdleHolder
  | reclaimOperation (op : ApplyOperation)
  | finishOperation (op : ApplyOperation) (releasePlanes : List Plane)
  | writeJournal (entry : JournalEntry)
deriving DecidableEq, Repr

namespace AgentOp

def Reply : AgentOp → Type
  | fence _ => Nat
  | reserveAll _ _ => List PlaneAck
  | reserve _ | stage _ | commit _ _ | applyHealth _ => PlaneAck
  | releaseIdleHolder | reclaimOperation _ => Bool
  | abort _ | release _ | fail _ | recordPublishIntent _ | releaseHolderSlots _
  | releaseStaleSlots _ | closeJournal _ _ | finishOperation _ _ | writeJournal _ => Unit

def mutate : (o : AgentOp) → AgentState → Except DpRejection (o.Reply × AgentState)
  | fence leaderToken => Agent.fence leaderToken
  | reserveAll op opening => Agent.reserveAll op opening
  | reserve op => Agent.reserve op
  | stage op => Agent.stage op
  | commit op evidence => Agent.commit op evidence
  | abort op => Agent.abort op
  | release op => Agent.release op
  | fail op => Agent.fail op
  | applyHealth op => Agent.applyHealth op
  | recordPublishIntent record => Agent.recordPublishIntent record
  | releaseHolderSlots op => Agent.releaseHolderSlots op
  | releaseStaleSlots op => Agent.releaseStaleSlots op
  | closeJournal op how => Agent.closeJournal op how
  | releaseIdleHolder => Agent.releaseIdleHolder
  | reclaimOperation op => Agent.reclaimOperation op
  | finishOperation op releasePlanes => Agent.finishOperation op releasePlanes
  | writeJournal entry => Agent.writeJournal entry

end AgentOp

/-- An effect that did not come back within its budget. -/
structure EffectTimeout where
  effect : String
  budgetMs : Nat
deriving DecidableEq, Repr

def EffectTimeout.message (timeout : EffectTimeout) : String :=
  s!"부작용 '{timeout.effect}' 가 예산 {timeout.budgetMs}ms 안에 끝나지 않았다"

inductive Thrown where
  | rejection (rejection : DpRejection)
  | violation (violation : InvariantViolation)
  | effectTimeout (timeout : EffectTimeout)
  | failure (message : String)
deriving DecidableEq, Repr

/-- The critical section over what the store holds: judge, change, trim, guard. -/
def serialFrom (o : AgentOp) (stored : Option AgentState) :
    Except Thrown (o.Reply × AgentState) :=
  match o.mutate (stored.getD initial) with
  | .error rejection => .error (.rejection rejection)
  | .ok (reply, changed) =>
      let next := prune changed
      match assertInvariants stored next with
      | some violation => .error (.violation violation)
      | none => .ok (reply, next)

/-- The critical section over a state that has been written before. -/
def serial (o : AgentOp) (s : AgentState) : Except Thrown (o.Reply × AgentState) :=
  serialFrom o (some s)

end Barycenter.Dp
