import Barycenter.Dp.AgentKeys
import Barycenter.Dp.GuardUnreachable
import Barycenter.Dp.VerdictFinality

/-!
# Applying a plan by moving membership only

When a plan renders the configuration that is served already, no generation is
made: the membership of the active epoch moves, and the operation is recorded as
activated.  A call first looks for the operation of the plan.  When it finds
none, it reads the coordinates, inserts its own operation unless one is there by
then, asks the agent plane by plane, and answers with the operation it made.
-/

namespace Barycenter.Control

open Dp

/-- What the recorded outcome of a membership-only operation says. -/
structure MembershipDetail where
  planes : List Plane
deriving DecidableEq, Repr

inductive RowPhase where
  | pending
  | ended (phase : ApplyPhase)
deriving DecidableEq, Repr

structure OperationRow where
  id : String
  planId : String
  revision : String
  activationEpoch : Nat
  generation : String
  phase : RowPhase
  detail : Option MembershipDetail
  envelope : ApplyOperation
deriving DecidableEq, Repr

structure OperationView where
  id : String
  planId : String
  revision : String
  activationEpoch : Nat
  generation : String
  phase : RowPhase
  detail : Option MembershipDetail
deriving DecidableEq, Repr

def viewOf (row : OperationRow) : OperationView where
  id := row.id
  planId := row.planId
  revision := row.revision
  activationEpoch := row.activationEpoch
  generation := row.generation
  phase := row.phase
  detail := row.detail

def findOperation (rows : List OperationRow) (planId : String) : Option OperationRow :=
  rows.find? fun row => row.planId = planId

/-- `INSERT … ON CONFLICT (plan_id) DO NOTHING` -/
def insertOperation (rows : List OperationRow) (row : OperationRow) : List OperationRow :=
  if (findOperation rows row.planId).isSome then rows else rows ++ [row]

def recordPhase (rows : List OperationRow) (id : String) (phase : ApplyPhase)
    (detail : MembershipDetail) : List OperationRow :=
  rows.map fun row =>
    if row.id = id then { row with phase := .ended phase, detail := some detail } else row

inductive Refusal where
  /-- `no_membership_target` -/
  | noMembershipTarget (epoch : Nat)
  | thrown (thrown : Thrown)
deriving DecidableEq, Repr

/-- What a call of apply carries for a plan that moves membership only: the
coordinates of the plan, the epoch that is served, and the slots to move. -/
structure MembershipRequest where
  planId : String
  revision : String
  epoch : Nat
  slots : PerPlane (OrderedMap String (List String))
  leaderToken : Nat

namespace MembershipRequest

variable (request : MembershipRequest)

/-- The planes that serve the epoch and have slots to move. -/
def touched (s : AgentState) : List Plane :=
  Plane.all.filter fun plane =>
    (s.planes.get plane).activationEpoch = request.epoch &&
      (request.slots.get plane).keys.length ≠ 0

def targetOf (s : AgentState) (plane : Plane) : PlaneTarget :=
  let current := s.planes.get plane
  { expectedCurrent := ⟨.ofNat current.activationEpoch, .ofNat current.membershipRevision⟩
    target := ⟨.ofNat request.epoch, .ofNat (current.membershipRevision + 1)⟩
    payloadDigest := request.revision }

def operationOf (operationId : String) (s : AgentState) (published : PublishedState) :
    ApplyOperation where
  leaderToken := .ofNat request.leaderToken
  operationId := operationId
  transitionId := "m" ++ request.revision
  affectedPlanes := request.touched s
  planes :=
    { http := if .http ∈ request.touched s then some (request.targetOf s .http) else none
      stream := if .stream ∈ request.touched s then some (request.targetOf s .stream) else none }
  targetGeneration :=
    match published with
    | .owned record => record.generation
    | _ => ""
  generationDigest :=
    match published with
    | .owned record => record.generationDigest
    | _ => ""

def rowOf (op : ApplyOperation) : OperationRow where
  id := op.operationId
  planId := request.planId
  revision := request.revision
  activationEpoch := request.epoch
  generation := op.targetGeneration
  phase := .pending
  detail := none
  envelope := op

def madeView (op : ApplyOperation) : OperationView where
  id := op.operationId
  planId := request.planId
  revision := request.revision
  activationEpoch := request.epoch
  generation := op.targetGeneration
  phase := .ended .activated
  detail := some ⟨op.affectedPlanes⟩

end MembershipRequest

/-! ## Calls of apply between their waits -/

inductive Progress where
  | looking
  | leading
  | inserting (op : ApplyOperation)
  | pushing (op : ApplyOperation) (remaining : List Plane)
  | delivering (op : ApplyOperation) (plane : Plane) (remaining : List Plane)
  | recording (op : ApplyOperation)
  | closing (op : ApplyOperation)
  | returned (view : OperationView)
  | refused (refusal : Refusal)

structure Applying where
  operations : List OperationRow
  appliedPlans : List String
  agent : AgentState
  published : PublishedState
  /-- Who was granted the membership of which plane, in order. -/
  accepted : List (String × Plane)
  /-- What reached the engine, in order. -/
  delivered : List (Plane × OrderedMap String (List String))
  calls : Bool → Progress

namespace Applying

def become (world : Applying) (caller : Bool) (progress : Progress) : Applying :=
  { world with calls := Function.update world.calls caller progress }

/-- The next step of one call.  The database and the engine answer. -/
def advance (request : MembershipRequest) (operationId : Bool → String) (world : Applying)
    (caller : Bool) : Applying :=
  match world.calls caller with
  | .looking =>
      match findOperation world.operations request.planId with
      | some row => world.become caller (.returned (viewOf row))
      | none => world.become caller .leading
  | .leading =>
      if request.touched world.agent = [] then
        world.become caller (.refused (.noMembershipTarget request.epoch))
      else
        world.become caller
          (.inserting (request.operationOf (operationId caller) world.agent world.published))
  | .inserting op =>
      { world with operations := insertOperation world.operations (request.rowOf op) }.become
        caller (.pushing op op.affectedPlanes)
  | .pushing op [] => world.become caller (.recording op)
  | .pushing op (plane :: remaining) =>
      match tupleFor op plane with
      | .error rejection => world.become caller (.refused (.thrown (.rejection rejection)))
      | .ok tuple =>
          match serial (.applyHealth tuple) world.agent with
          | .error thrown => world.become caller (.refused (.thrown thrown))
          | .ok (ack, agent) =>
              { world with
                agent := agent
                accepted :=
                  if PlaneAck.cached ack then world.accepted
                  else world.accepted ++ [(op.operationId, plane)] }.become
                caller (.delivering op plane remaining)
  | .delivering op plane remaining =>
      { world with delivered := world.delivered ++ [(plane, request.slots.get plane)] }.become
        caller (.pushing op remaining)
  | .recording op =>
      { world with
        operations := recordPhase world.operations op.operationId .activated
          ⟨op.affectedPlanes⟩ }.become caller (.closing op)
  | .closing op =>
      { world with appliedPlans := request.planId :: world.appliedPlans }.become caller
        (.returned (request.madeView op))
  | .returned _ | .refused _ => world

def Step (request : MembershipRequest) (operationId : Bool → String) (before : Applying)
    (caller : Bool) (after : Applying) : Prop :=
  after = before.advance request operationId caller

end Applying

end Barycenter.Control
