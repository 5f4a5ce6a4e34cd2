import Barycenter.Foundation.OrderedMap
import Barycenter.Dp.Operation

/-!
# Durable state of the data-plane agent

Coordinates carry the identity of the commit that placed them, reservations
carry the whole tuple that owns them, and the journal carries the whole
operation, so that recovery resumes exactly what was interrupted.  The ledgers
are keyed by text that joins the parts of an identity; the joins are the
program's own, separators included.
-/

namespace Barycenter.Dp

structure PlaneAuthor where
  operationId : String
  transitionId : String
  leaderToken : Nat
deriving DecidableEq, Repr

structure PlaneState where
  activationEpoch : Nat
  membershipRevision : Nat
  payloadDigest : String
  author : Option PlaneAuthor := none
deriving DecidableEq, Repr

def PlaneState.coordinate (state : PlaneState) : Coordinate :=
  { activationEpoch := state.activationEpoch
    membershipRevision := state.membershipRevision }

/-- An epoch alone does not prove that an operation was admitted, so every
request carries the full tuple. -/
structure OperationTuple where
  leaderToken : Nat
  operationId : String
  transitionId : String
  plane : Plane
  expectedCurrent : Coordinate
  target : Coordinate
  payloadDigest : String
  targetGeneration : String
  generationDigest : String
deriving DecidableEq, Repr

structure PlaneAck where
  state : PlaneState
  plane : Plane
  transitionId : String
  cached : Bool
deriving DecidableEq, Repr

inductive RejectionKind where
  | staleLeader
  | terminal
  | slotTaken
  | notReserved
  | tupleMismatch
  | staleState
  | coordinateMismatch
  | digestMismatch
  | epochNotMonotonic
  | notStaged
  | operationInFlight
  | journalConflict
  | invalidCoordinate
  | emptyEnvelope
  | envelopeMismatch
  | notActivated
  | malformedRequest
deriving DecidableEq, Repr

def RejectionKind.text : RejectionKind → String
  | .staleLeader => "stale_leader"
  | .terminal => "terminal"
  | .slotTaken => "slot_taken"
  | .notReserved => "not_reserved"
  | .tupleMismatch => "tuple_mismatch"
  | .staleState => "stale_state"
  | .coordinateMismatch => "coordinate_mismatch"
  | .digestMismatch => "digest_mismatch"
  | .epochNotMonotonic => "epoch_not_monotonic"
  | .notStaged => "not_staged"
  | .operationInFlight => "operation_in_flight"
  | .journalConflict => "journal_conflict"
  | .invalidCoordinate => "invalid_coordinate"
  | .emptyEnvelope => "empty_envelope"
  | .envelopeMismatch => "envelope_mismatch"
  | .notActivated => "not_activated"
  | .malformedRequest => "malformed_request"

inductive TerminalKind where
  | activated
  | failed
  | aborted
deriving DecidableEq, Repr

def TerminalKind.text : TerminalKind → String
  | .activated => "activated"
  | .failed => "failed"
  | .aborted => "aborted"

structure DpRejection where
  kind : RejectionKind
  message : String
  terminalState : Option TerminalKind := none
deriving DecidableEq, Repr

/-- The owner of a `(plane, target epoch)` slot, and the digest it staged. -/
structure Reservation where
  op : OperationTuple
  stagedDigest : Option String := none
deriving DecidableEq, Repr

/-- The holder of the apply path.  There is one at a time, because the journal,
the published pointer and the reload signal are global. -/
structure ActiveOperation where
  operationId : String
  transitionId : String
  leaderToken : Nat
  planes : List Plane
  epochs : PerPlane (Option Nat)
deriving DecidableEq, Repr

/-- A journal entry before its sequence number is decided. -/
structure JournalOpening where
  op : ApplyOperation
  phase : ApplyPhase
  reloadAttempts : Nat
  progress : PerPlane (Option PlaneProgress)
  evidence : Option ActivationEvidence := none
  failure : Option String := none
deriving DecidableEq, Repr

structure JournalEntry extends JournalOpening where
  seq : Nat
deriving DecidableEq, Repr

structure CompletedStep where
  tuple : String
  payloadDigest : String
  ack : PlaneAck
  transition : String
deriving DecidableEq, Repr

structure TerminalPlace where
  plane : Plane
  epoch : Nat
deriving DecidableEq, Repr

structure AgentState where
  maxLeaderToken : Nat
  planes : PerPlane PlaneState
  reservations : PerPlane (OrderedMap Nat Reservation)
  completed : OrderedMap String CompletedStep
  terminal : OrderedMap String TerminalKind
  terminalAt : OrderedMap String TerminalPlace
  activationEvidence : OrderedMap String ActivationEvidence
  activeOperation : Option ActiveOperation := none
  lastActivated : Option PublishRecord := none
  lastPublishIntent : Option PublishRecord := none
  pendingActivation : Option PublishRecord := none
  pendingEpochs : Option (PerPlane (Option Nat)) := none
  journal : Option JournalEntry := none
deriving DecidableEq, Repr

def zero : PlaneState :=
  { activationEpoch := 0, membershipRevision := 0, payloadDigest := "" }

def initial : AgentState :=
  { maxLeaderToken := 0
    planes := { http := zero, stream := zero }
    reservations := { http := .empty, stream := .empty }
    completed := .empty
    terminal := .empty
    terminalAt := .empty
    activationEvidence := .empty }

namespace AgentState

def slot (s : AgentState) (plane : Plane) (epoch : Nat) : Option Reservation :=
  (s.reservations.get plane).get? epoch

def setSlot (s : AgentState) (plane : Plane) (epoch : Nat)
    (reservation : Reservation) : AgentState :=
  { s with
    reservations := s.reservations.set plane
      ((s.reservations.get plane).set epoch reservation) }

def dropSlot (s : AgentState) (plane : Plane) (epoch : Nat) : AgentState :=
  { s with
    reservations := s.reservations.set plane
      ((s.reservations.get plane).erase epoch) }

theorem slot_setSlot (s : AgentState) (plane other : Plane) (epoch otherEpoch : Nat)
    (reservation : Reservation) :
    (s.setSlot plane epoch reservation).slot other otherEpoch =
      if plane = other ∧ epoch = otherEpoch then some reservation
      else s.slot other otherEpoch := by
  by_cases samePlane : plane = other
  · subst samePlane
    simp [slot, setSlot, OrderedMap.get?_set]
  · simp [slot, setSlot, samePlane, PerPlane.get_set_other _ _ samePlane]

theorem slot_dropSlot (s : AgentState) (plane other : Plane) (epoch otherEpoch : Nat) :
    (s.dropSlot plane epoch).slot other otherEpoch =
      if plane = other ∧ epoch = otherEpoch then none
      else s.slot other otherEpoch := by
  by_cases samePlane : plane = other
  · subst samePlane
    by_cases sameEpoch : epoch = otherEpoch
    · subst sameEpoch
      simp [slot, dropSlot]
    · simp [slot, dropSlot, OrderedMap.get?_erase, sameEpoch, Ne.symm sameEpoch]
  · simp [slot, dropSlot, samePlane, PerPlane.get_set_other _ _ samePlane]

end AgentState

def normalizeNumeric (numeral : Numeral) : Nat := numeral.value

def normalizeCoordinate (raw : RawCoordinate) : Coordinate :=
  { activationEpoch := normalizeNumeric raw.activationEpoch
    membershipRevision := normalizeNumeric raw.membershipRevision }

/-- The tuple of one plane of an operation.  This is where numerals become
normal. -/
def tupleFor (op : ApplyOperation) (plane : Plane) :
    Except DpRejection OperationTuple :=
  match op.planes.get plane with
  | none =>
      .error { kind := .envelopeMismatch
               message := s!"오퍼레이션에 평면 '{plane.text}' 의 목표가 없다" }
  | some target =>
      .ok { leaderToken := normalizeNumeric op.leaderToken
            operationId := op.operationId
            transitionId := op.transitionId
            plane := plane
            expectedCurrent := normalizeCoordinate target.expectedCurrent
            target := normalizeCoordinate target.target
            payloadDigest := target.payloadDigest
            targetGeneration := op.targetGeneration
            generationDigest := op.generationDigest }

/-- The canonical text of a tuple.  Two requests with the same key and different
canonical texts are different requests. -/
def canonical (op : OperationTuple) : String :=
  "|".intercalate
    [toString op.leaderToken, op.operationId, op.transitionId, op.plane.text,
      toString op.expectedCurrent.activationEpoch,
      toString op.expectedCurrent.membershipRevision,
      toString op.target.activationEpoch,
      toString op.target.membershipRevision,
      op.payloadDigest, op.targetGeneration, op.generationDigest]

inductive Step where
  | reserve
  | stage
  | commit
  | health
deriving DecidableEq, Repr

def Step.text : Step → String
  | .reserve => "reserve"
  | .stage => "stage"
  | .commit => "commit"
  | .health => "health"

def key (op : OperationTuple) (step : Step) : String :=
  ":".intercalate
    [op.operationId, op.transitionId, toString op.leaderToken, op.plane.text, step.text]

/-- The name and token of a transition, without its plane. -/
structure Identity where
  operationId : String
  transitionId : String
  leaderToken : Nat
deriving DecidableEq, Repr

def OperationTuple.identity (op : OperationTuple) : Identity :=
  { operationId := op.operationId
    transitionId := op.transitionId
    leaderToken := op.leaderToken }

def ApplyOperation.identity (op : ApplyOperation) : Identity :=
  { operationId := op.operationId
    transitionId := op.transitionId
    leaderToken := normalizeNumeric op.leaderToken }

def ActiveOperation.identity (holder : ActiveOperation) : Identity :=
  { operationId := holder.operationId
    transitionId := holder.transitionId
    leaderToken := holder.leaderToken }

def PublishRecord.identity (record : PublishRecord) : Identity :=
  { operationId := record.operationId
    transitionId := record.transitionId
    leaderToken := normalizeNumeric record.leaderToken }

def PlaneAuthor.identity (author : PlaneAuthor) : Identity :=
  { operationId := author.operationId
    transitionId := author.transitionId
    leaderToken := author.leaderToken }

/-- The key of a transition in the ledger of finished transitions. -/
def transitionKey (who : Identity) (plane : Plane) : String :=
  ":".intercalate
    [who.operationId, who.transitionId, toString who.leaderToken, plane.text]

/-- The key of the same ledger before tokens were part of it.  It is read and
never written. -/
def legacyTerminalKey (who : Identity) (plane : Plane) : String :=
  ":".intercalate [who.operationId, who.transitionId, plane.text]

def terminalOf (s : AgentState) (who : Identity) (plane : Plane) : Option TerminalKind :=
  (s.terminal.get? (transitionKey who plane)).or
    (s.terminal.get? (legacyTerminalKey who plane))

/-- The group a cached answer belongs to when the cache is trimmed. -/
def transitionOfOp (who : Identity) : String :=
  "\x00".intercalate [who.operationId, who.transitionId, toString who.leaderToken]

def evidenceKey (plane : Plane) (epoch : Nat) : String :=
  ":".intercalate [plane.text, toString epoch]

def authoredBy (current : PlaneState) (who : Identity) : Bool :=
  match current.author with
  | none => false
  | some author => author.identity = who

def ownsSlotOp (slot : Option Reservation) (who : Identity) : Bool :=
  match slot with
  | none => false
  | some reservation => reservation.op.identity = who

/-- Does the slot of the tuple belong to the tuple?  The canonical text decides. -/
def ownsSlot (s : AgentState) (op : OperationTuple) : Bool :=
  match s.slot op.plane op.target.activationEpoch with
  | none => false
  | some reservation => canonical reservation.op = canonical op

def ownsJournal (journal : Option JournalEntry) (op : ApplyOperation) : Bool :=
  match journal with
  | none => false
  | some entry => entry.op.identity = op.identity

/-- Equality of names.  The token is left out on purpose. -/
def sameTransitionName (left right : Identity) : Bool :=
  left.operationId = right.operationId && left.transitionId = right.transitionId

def epochsOf (op : ApplyOperation) : PerPlane (Option Nat) :=
  { http := op.planes.http.map fun target => normalizeNumeric target.target.activationEpoch
    stream := op.planes.stream.map fun target =>
      normalizeNumeric target.target.activationEpoch }

def planesOfOperation (op : ApplyOperation) : List Plane :=
  Plane.all.filter fun plane => (op.planes.get plane).isSome

end Barycenter.Dp
