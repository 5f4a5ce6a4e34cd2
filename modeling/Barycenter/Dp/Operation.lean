import Barycenter.Foundation.JsonText

/-!
# Envelopes, operations and activation evidence

The vocabulary shared by the data-plane agent, the apply runner and the driver:
planes and their coordinates, the operation that moves both planes, what counts
as evidence that a generation is serving, and who published what.

Decimal strings come in two forms.  What a caller sends may carry leading zeros
and is a `Numeral`; what the agent stores has gone through `normalizeNumeric`
and is a natural number.
-/

namespace Barycenter.Dp

inductive Plane where
  | http
  | stream
deriving DecidableEq, Repr

namespace Plane

def text : Plane → String
  | .http => "http"
  | .stream => "stream"

def all : List Plane := [.http, .stream]

@[simp] theorem mem_all (plane : Plane) : plane ∈ all := by
  cases plane <;> simp [all]

end Plane

/-- One value for each plane: a record with the keys `http` and `stream`. -/
structure PerPlane (α : Type) where
  http : α
  stream : α
deriving DecidableEq, Repr

namespace PerPlane

variable {α : Type}

def get (record : PerPlane α) : Plane → α
  | .http => record.http
  | .stream => record.stream

def set (record : PerPlane α) (plane : Plane) (value : α) : PerPlane α :=
  match plane with
  | .http => { record with http := value }
  | .stream => { record with stream := value }

@[simp] theorem get_set_same (record : PerPlane α) (plane : Plane) (value : α) :
    (record.set plane value).get plane = value := by
  cases plane <;> rfl

theorem get_set_other (record : PerPlane α) {plane other : Plane} (value : α)
    (different : plane ≠ other) :
    (record.set plane value).get other = record.get other := by
  cases plane <;> cases other <;> first | rfl | exact absurd rfl different

theorem get_set (record : PerPlane α) (plane other : Plane) (value : α) :
    (record.set plane value).get other =
      if plane = other then value else record.get other := by
  by_cases same : plane = other
  · subst same
    simp
  · simp [same, get_set_other record value same]

end PerPlane

/-- A non-empty string of decimal digits: `padding` zeros in front of the normal
form of `value`.  Every such string is exactly one of these. -/
structure Numeral where
  padding : Nat
  value : Nat
deriving DecidableEq, Repr

namespace Numeral

def text (numeral : Numeral) : String :=
  String.ofList (List.replicate numeral.padding '0') ++ toString numeral.value

def ofNat (value : Nat) : Numeral := { padding := 0, value := value }

end Numeral

structure RawCoordinate where
  activationEpoch : Numeral
  membershipRevision : Numeral
deriving DecidableEq, Repr

structure Coordinate where
  activationEpoch : Nat
  membershipRevision : Nat
deriving DecidableEq, Repr

/-- The coordinate exchange an operation asks of one plane. -/
structure PlaneTarget where
  expectedCurrent : RawCoordinate
  target : RawCoordinate
  payloadDigest : String
deriving DecidableEq, Repr

/-- The envelope every mutation travels in, with the target of each plane it
carries one for. -/
structure ApplyOperation where
  leaderToken : Numeral
  operationId : String
  transitionId : String
  affectedPlanes : List Plane
  planes : PerPlane (Option PlaneTarget)
  targetGeneration : String
  generationDigest : String
deriving DecidableEq, Repr

inductive PlaneProgress where
  | pending
  | reserved
  | staged
  | committed
  | aborted
  | failed
deriving DecidableEq, Repr

structure ActivationEvidence where
  acceptingGeneration : Option String
  configTestPassed : Option Bool := none
  errorLogGrowth : Option Int := none
  masterPid : Option String := none
  workersReported : Option Int := none
  workersExpected : Option Int := none
deriving DecidableEq, Repr

def ActivationEvidence.json (evidence : ActivationEvidence) : String :=
  JsonText.object
    [JsonText.field "acceptingGeneration"
        (evidence.acceptingGeneration.map JsonText.quoted),
      JsonText.field "configTestPassed" (evidence.configTestPassed.map JsonText.bool),
      JsonText.field "errorLogGrowth" (evidence.errorLogGrowth.map toString),
      JsonText.field "masterPid" (evidence.masterPid.map JsonText.quoted),
      JsonText.field "workersReported" (evidence.workersReported.map toString),
      JsonText.field "workersExpected" (evidence.workersExpected.map toString)]

/-- Does the evidence prove that the generation is serving?  The generation has
to match, and no signal that was observed may speak against it. -/
def provesActivation (evidence : Option ActivationEvidence)
    (targetGeneration : String) : Bool :=
  match evidence with
  | none => false
  | some seen =>
      if seen.acceptingGeneration ≠ some targetGeneration then false
      else if seen.configTestPassed = some false then false
      else if seen.errorLogGrowth.any (0 < ·) then false
      else
        match seen.workersExpected, seen.workersReported with
        | some expected, some reported => !decide (reported < expected)
        | _, _ => true

structure PublishRecord where
  generation : String
  leaderToken : Numeral
  operationId : String
  transitionId : String
  generationDigest : String
deriving DecidableEq, Repr

inductive PublishedState where
  | none
  | owned (record : PublishRecord)
  | inconsistent (generation : Option String) (record : Option PublishRecord)
deriving DecidableEq, Repr

def publishedByMe (state : PublishedState) (op : ApplyOperation) : Bool :=
  match state with
  | .owned record =>
      record.generation = op.targetGeneration
        && record.generationDigest = op.generationDigest
        && record.operationId = op.operationId
        && record.transitionId = op.transitionId
        && record.leaderToken = op.leaderToken
  | _ => false

inductive ApplyPhase where
  | preflight
  | publishIntent
  | published
  | membershipStaged
  | reloadIntent
  | reloadObserved
  | activated
  | partiallyActivated
  | partialExhausted
  | failed
  | superseded
  | noOperation
deriving DecidableEq, Repr

def ApplyPhase.text : ApplyPhase → String
  | .preflight => "preflight"
  | .publishIntent => "publish_intent"
  | .published => "published"
  | .membershipStaged => "membership_staged"
  | .reloadIntent => "reload_intent"
  | .reloadObserved => "reload_observed"
  | .activated => "activated"
  | .partiallyActivated => "partially_activated"
  | .partialExhausted => "partial_exhausted"
  | .failed => "failed"
  | .superseded => "superseded"
  | .noOperation => "no_operation"

/-- `partiallyActivated` is not terminal: it is retried a bounded number of
times. -/
def terminalPhases : List ApplyPhase :=
  [.activated, .partialExhausted, .failed, .superseded, .noOperation]

def isTerminalPhase (phase : ApplyPhase) : Bool := terminalPhases.contains phase

structure ApplyResult where
  phase : ApplyPhase
  progress : PerPlane (Option PlaneProgress)
  partialTransition : Bool
  evidence : Option ActivationEvidence := none
  failure : Option String := none
deriving DecidableEq, Repr

/-- The planes of an envelope in a fixed order, so that every run walks them the
same way.  Sorting by name puts `http` before `stream`. -/
def planesOf (op : ApplyOperation) : List Plane :=
  op.affectedPlanes.filter (· = .http) ++ op.affectedPlanes.filter (· = .stream)

theorem mem_planesOf {op : ApplyOperation} {plane : Plane} :
    plane ∈ planesOf op ↔ plane ∈ op.affectedPlanes := by
  cases plane <;> simp [planesOf]

end Barycenter.Dp
