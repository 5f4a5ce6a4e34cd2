import Barycenter.Foundation.Outcome
import Barycenter.Dp.AgentState

/-!
# Admission, slots and the ledgers

The helpers that run inside the agent's critical section.  A refused request
leaves no state behind, so every helper that can refuse returns the next state
only on success.
-/

namespace Barycenter.Dp

def maxToken (seen offered : Nat) : Nat := if seen < offered then offered else seen

@[simp] theorem maxToken_eq_max (seen offered : Nat) :
    maxToken seen offered = max seen offered := by
  unfold maxToken
  split <;> omega

namespace AgentState

def raise (s : AgentState) (token : Nat) : AgentState :=
  { s with maxLeaderToken := maxToken s.maxLeaderToken token }

def setTerminal (s : AgentState) (name : String) (how : TerminalKind) : AgentState :=
  { s with terminal := s.terminal.set name how }

end AgentState

def staleLeader (token newest : Nat) : DpRejection :=
  { kind := .staleLeader
    message := s!"토큰 {token} 은 이미 본 최대 토큰 {newest} 보다 낮다" }

def assertLeader (s : AgentState) (token : Nat) : Except DpRejection Unit :=
  if token < s.maxLeaderToken then .error (staleLeader token s.maxLeaderToken)
  else .ok ()

/-- The transition has ended, so it cannot be taken further. -/
def alreadyEnded (op : OperationTuple) (how : TerminalKind) : DpRejection :=
  { kind := .terminal
    message := s!"{transitionKey op.identity op.plane} 는 이미 {how.text} 로 끝났다"
    terminalState := some how }

/-- The same key was answered before for a different request. -/
def sameKeyOtherRequest (op : OperationTuple) (step : Step) (seen : CompletedStep) :
    DpRejection :=
  if seen.payloadDigest ≠ op.payloadDigest then
    { kind := .digestMismatch
      message := s!"{key op step} 는 이미 다른 digest 로 처리됐다 " ++
        s!"({seen.payloadDigest} ≠ {op.payloadDigest})" }
  else
    { kind := .tupleMismatch
      message := s!"{key op step} 는 digest 가 같지만 튜플이 다르다 — 같은 키에 다른 요청이다" }

/-- Token check and replay judgement.  A transition that was aborted or failed
never happened, so even its cached answers are withheld; one that was activated
may be replayed. -/
def admitOp (s : AgentState) (op : OperationTuple) (step : Step) :
    Except DpRejection (Option PlaneAck × AgentState) := do
  assertLeader s op.leaderToken
  let raised := s.raise op.leaderToken
  match terminalOf raised op.identity op.plane with
  | some .aborted => .error (alreadyEnded op .aborted)
  | some .failed => .error (alreadyEnded op .failed)
  | already =>
      match raised.completed.get? (key op step) with
      | some seen =>
          if seen.tuple ≠ canonical op then .error (sameKeyOtherRequest op step seen)
          else .ok (some { seen.ack with cached := true }, raised)
      | none =>
          match already with
          | some how => .error (alreadyEnded op how)
          | none => .ok (none, raised)

def OperationTuple.reached (op : OperationTuple) : PlaneState :=
  { activationEpoch := op.target.activationEpoch
    membershipRevision := op.target.membershipRevision
    payloadDigest := op.payloadDigest }

def OperationTuple.author (op : OperationTuple) : PlaneAuthor :=
  { operationId := op.operationId
    transitionId := op.transitionId
    leaderToken := op.leaderToken }

def OperationTuple.placed (op : OperationTuple) : PlaneState :=
  { op.reached with author := some op.author }

/-- The publish record a commit proposes as the next baseline. -/
def OperationTuple.candidate (op : OperationTuple) : PublishRecord :=
  { generation := op.targetGeneration
    leaderToken := .ofNat op.leaderToken
    operationId := op.operationId
    transitionId := op.transitionId
    generationDigest := op.generationDigest }

def ackOf (op : OperationTuple) (result : PlaneState) : PlaneAck :=
  { state := result, plane := op.plane, transitionId := op.transitionId, cached := false }

def record (s : AgentState) (op : OperationTuple) (step : Step) (result : PlaneState) :
    AgentState :=
  { s with
    completed := s.completed.set (key op step)
      { tuple := canonical op
        payloadDigest := op.payloadDigest
        ack := ackOf op result
        transition := transitionOfOp op.identity } }

def sameCoordinate (left right : Coordinate) : Bool := left = right

theorem sameCoordinate_iff {left right : Coordinate} :
    sameCoordinate left right = true ↔ left = right := by
  simp [sameCoordinate]

/-- Take a slot.  An empty one has to pass the coordinate exchange, a taken one
has to be the caller's own. -/
def acquire (s : AgentState) (op : OperationTuple) :
    Except DpRejection (Reservation × AgentState) :=
  match s.slot op.plane op.target.activationEpoch with
  | some existing =>
      if canonical existing.op ≠ canonical op then
        .error { kind := .slotTaken
                 message := s!"({op.plane.text}, {op.target.activationEpoch}) 는 이미 " ++
                   s!"{transitionKey existing.op.identity existing.op.plane} 의 것이다" }
      else .ok (existing, s)
  | none =>
      let current := s.planes.get op.plane
      if !sameCoordinate current.coordinate op.expectedCurrent then
        .error { kind := .coordinateMismatch
                 message := s!"{op.plane.text} 는 ({current.activationEpoch}," ++
                   s!"{current.membershipRevision}) 인데 " ++
                   s!"({op.expectedCurrent.activationEpoch}," ++
                   s!"{op.expectedCurrent.membershipRevision}) 를 기대했다" }
      else if op.target.activationEpoch ≤ current.activationEpoch then
        .error { kind := .epochNotMonotonic
                 message := "activation_epoch 는 앞으로만 간다: " ++
                   s!"{current.activationEpoch} → {op.target.activationEpoch}" }
      else
        let slot : Reservation := { op := op }
        .ok (slot, s.setSlot op.plane op.target.activationEpoch slot)

/-- The state without the slot of a tuple, when the slot is the tuple's own. -/
def withoutOwnSlot (s : AgentState) (op : OperationTuple) : AgentState :=
  { s with
    reservations :=
      if ownsSlot s op then (s.dropSlot op.plane op.target.activationEpoch).reservations
      else s.reservations }

/-- End a transition and give its slot back.  Only its own slot. -/
def finish (s : AgentState) (op : OperationTuple) (how : TerminalKind) : AgentState :=
  let name := transitionKey op.identity op.plane
  { s with
    reservations := (withoutOwnSlot s op).reservations
    terminal := s.terminal.set name how
    terminalAt := s.terminalAt.set name
      { plane := op.plane, epoch := op.target.activationEpoch } }

/-- End a transition on request, behind the token check.  Ending it twice the
same way is one ending. -/
def finalize (s : AgentState) (op : OperationTuple) (how : TerminalKind) :
    Except DpRejection AgentState := do
  assertLeader s op.leaderToken
  let raised := s.raise op.leaderToken
  match terminalOf raised op.identity op.plane with
  | some already =>
      if already = how then .ok raised
      else
        .error { kind := .terminal
                 message := s!"{transitionKey op.identity op.plane} 는 이미 " ++
                   s!"{already.text} 로 끝났다 — {how.text} 로 바꿀 수 없다"
                 terminalState := some already }
  | none => .ok (finish raised op how)

/-- Did the candidate arrive where it declared?  The signature of a coordinate
answers; an unsigned one is answered by the ledger of finished transitions. -/
def candidateArrived (s : AgentState) (candidate : PublishRecord)
    (epochs : Option (PerPlane (Option Nat))) : Bool :=
  match epochs with
  | none => false
  | some declared =>
      Plane.all.all fun plane =>
        match declared.get plane with
        | none => true
        | some epoch =>
            let current := s.planes.get plane
            if current.activationEpoch ≠ epoch then false
            else
              match current.author with
              | none => terminalOf s candidate.identity plane = some .activated
              | some _ => authoredBy current candidate.identity

def positionsReached (s : AgentState) (epochs : Option (PerPlane (Option Nat))) : Bool :=
  match epochs with
  | none => false
  | some declared =>
      Plane.all.all fun plane =>
        match declared.get plane with
        | none => true
        | some epoch => (s.planes.get plane).activationEpoch = epoch

/-- The declaration the journal remembers, when it is of the same name. -/
def epochsFromJournal (s : AgentState) (who : Identity) : Option (PerPlane (Option Nat)) :=
  match s.journal with
  | none => none
  | some entry =>
      if sameTransitionName entry.op.identity who then some (epochsOf entry.op) else none

def candidateNamed (s : AgentState) (who : Identity) : Option PublishRecord :=
  s.pendingActivation.filter fun candidate => sameTransitionName candidate.identity who

/-- The baseline after the candidate is closed: the candidate when it arrived,
none when the world has passed the baseline without the candidate's signature,
and the old one otherwise. -/
def settledBaseline (s : AgentState) (candidate : PublishRecord) (who : Identity) :
    Option PublishRecord :=
  let epochs := s.pendingEpochs.or (epochsFromJournal s who)
  if candidateArrived s candidate epochs then some candidate
  else if positionsReached s epochs then none
  else s.lastActivated

/-- Close the candidate of a name and forget it either way. -/
def finalizeCandidate (s : AgentState) (who : Identity) : AgentState :=
  let closes := (candidateNamed s who).isSome
  { s with
    lastActivated :=
      match candidateNamed s who with
      | none => s.lastActivated
      | some candidate => settledBaseline s candidate who
    pendingActivation := if closes then none else s.pendingActivation
    pendingEpochs := if closes then none else s.pendingEpochs }

/-- Take, of the listed planes, the slots that belong to the identity away. -/
def freeSlots (who : Identity) (epochs : PerPlane (Option Nat)) :
    List Plane → PerPlane (OrderedMap Nat Reservation) →
      PerPlane (OrderedMap Nat Reservation)
  | [], reservations => reservations
  | plane :: rest, reservations =>
      match epochs.get plane with
      | none => freeSlots who epochs rest reservations
      | some epoch =>
          if ownsSlotOp ((reservations.get plane).get? epoch) who then
            freeSlots who epochs rest
              (reservations.set plane ((reservations.get plane).erase epoch))
          else freeSlots who epochs rest reservations

def releaseHeld (s : AgentState) (who : Identity) (epochs : PerPlane (Option Nat))
    (planes : List Plane) : AgentState :=
  { s with reservations := freeSlots who epochs planes s.reservations }

def JournalEntry.closedAs (entry : JournalEntry) (phase : ApplyPhase) : JournalEntry :=
  { entry with phase := phase, seq := entry.seq + 1 }

/-- Close the journal of a name when it is still open. -/
def closeNamed (s : AgentState) (who : Identity) : AgentState :=
  { s with
    journal := s.journal.map fun entry =>
      if sameTransitionName entry.op.identity who && !isTerminalPhase entry.phase then
        entry.closedAs .superseded
      else entry }

/-- Let the right go when exactly this identity holds it. -/
def vacate (s : AgentState) (who : Identity) : AgentState :=
  { s with
    activeOperation := s.activeOperation.filter fun holder => holder.identity ≠ who }

/-- Take the apply path away from a holder: give its slots back, close its
journal, settle its candidate. -/
def supersede (s : AgentState) (holder : ActiveOperation) : AgentState :=
  let freed := releaseHeld s holder.identity holder.epochs holder.planes
  let closed := closeNamed freed holder.identity
  let settled := finalizeCandidate closed holder.identity
  vacate settled holder.identity

def EVIDENCE_RETENTION : Nat := 64

def COMPLETED_RETENTION : Nat := 64

def standingKeys (s : AgentState) : List String :=
  Plane.all.map fun plane => evidenceKey plane (s.planes.get plane).activationEpoch

def pruneEvidence (s : AgentState) : AgentState :=
  let keys := s.activationEvidence.keys
  let drop := (keys.filter fun name => !(standingKeys s).contains name).take
    (keys.length - EVIDENCE_RETENTION)
  { s with activationEvidence := s.activationEvidence.without drop.contains }

def bothKeys (who : Option Identity) : List String :=
  match who with
  | none => []
  | some identity => Plane.all.map (transitionKey identity)

/-- The transitions something in the state still points at. -/
def liveTransitionKeys (s : AgentState) : List String :=
  bothKeys (s.activeOperation.map ActiveOperation.identity)
    ++ bothKeys (s.journal.map fun entry => entry.op.identity)
    ++ bothKeys (s.lastActivated.map PublishRecord.identity)
    ++ bothKeys (s.lastPublishIntent.map PublishRecord.identity)
    ++ bothKeys (s.pendingActivation.map PublishRecord.identity)
    ++ Plane.all.flatMap fun plane =>
        (s.reservations.get plane).values.map fun slot =>
          transitionKey slot.op.identity slot.op.plane

/-- May the record of a finished transition be dropped?  Only once its epoch
has been passed and nothing points at it any more. -/
def terminalPrunable (place : Option TerminalPlace) (s : AgentState) (name : String)
    (live : List String) : Bool :=
  match place with
  | none => false
  | some place =>
      if (s.planes.get place.plane).activationEpoch ≤ place.epoch then false
      else if (s.slot place.plane place.epoch).isSome then false
      else !live.contains name

def pruneTerminal (s : AgentState) : AgentState :=
  let live := liveTransitionKeys s
  let prunable (name : String) : Bool :=
    terminalPrunable (s.terminalAt.get? name) s name live
  { s with
    terminal := s.terminal.without prunable
    terminalAt := s.terminalAt.without fun name =>
      (s.terminal.get? name).isNone || prunable name }

/-- The transitions with cached answers, oldest first. -/
def transitionOrder (completed : OrderedMap String CompletedStep) : List String :=
  completed.values.foldl
    (fun order step =>
      if order.contains step.transition then order else order ++ [step.transition]) []

/-- The transitions whose cached answers are kept whatever their age. -/
def keptTransitions (s : AgentState) : List String :=
  (s.activeOperation.map fun holder => transitionOfOp holder.identity).toList
    ++ (s.journal.map fun entry => transitionOfOp entry.op.identity).toList

def pruneCompleted (s : AgentState) : AgentState :=
  let order := transitionOrder s.completed
  let drop := (order.filter fun name => !(keptTransitions s).contains name).take
    (order.length - COMPLETED_RETENTION)
  { s with
    completed := s.completed.without fun name =>
      (s.completed.get? name).any fun step => drop.contains step.transition }

def prune (s : AgentState) : AgentState :=
  pruneCompleted (pruneTerminal (pruneEvidence s))

end Barycenter.Dp
