import Barycenter.Dp.Apply

/-!
# The driver

The only surface a control plane has: fence, apply, recover, abort, membership
and reconciliation.  Each is a program over the agent and the effects.
Reconciliation is the one that answers questions about the outside world, and
it grants `converged` and `repaired` only after it looked at the baseline, the
candidate and the journal once more.
-/

namespace Barycenter.Dp

inductive ReconcileResult where
  | noBaseline
  | dirty (intent : PublishRecord) (found : PublishedState)
  | unfinished (pending : PublishRecord) (found : PublishedState)
  | converged (record : PublishRecord)
  | repaired (expected : PublishRecord) (found : PublishedState)
  | diverged (expected : PublishRecord) (found : PublishedState)
deriving DecidableEq, Repr

/-- Why the baseline may, or may not, be called right at this moment. -/
inductive SettleCheck where
  | settled
  | unfinished (pending : PublishRecord)
  | moved
deriving DecidableEq, Repr

/-- A transition that has not ended: a candidate that is not the baseline yet,
or a journal that is still open. -/
def unfinishedIn (s : AgentState) : Option PublishRecord :=
  match s.pendingActivation with
  | some candidate => some candidate
  | none =>
      match s.journal with
      | none => none
      | some entry =>
          if isTerminalPhase entry.phase then none else some (recordOf entry.op)

def settled (s : AgentState) (expected : PublishRecord) : SettleCheck :=
  match unfinishedIn s with
  | some pending => .unfinished pending
  | none => if s.lastActivated = some expected then .settled else .moved

/-- The check behind a lease, over the state of the moment. -/
def Lease.assertValid (s : AgentState) : Lease → Except DpRejection Unit
  | .apply op => ownershipOf s op
  | .reconcile expected =>
      if normalizeNumeric expected.leaderToken < s.maxLeaderToken then
        .error { kind := .staleLeader
                 message := "되돌리는 사이 리더가 바뀌었다" }
      else if settled s expected ≠ .settled then
        .error { kind := .staleLeader
                 message := "되돌리는 사이 기준이 바뀌었거나 새 활성화가 끝났다" }
      else .ok ()

namespace Driver

open Prog

def fence (leaderToken : Numeral) : Program Nat := durably (.fence leaderToken)

def applyConfig (deployment : Deployment) (op : ApplyOperation) : Program ApplyResult :=
  Runner.run deployment op

def recoverConfig (deployment : Deployment) : Program ApplyResult :=
  Runner.recover deployment

/-- Move the membership inside the active epoch.  The coordinate moves first,
so that a stale leader is refused before anything is pushed. -/
def applyMembership (deployment : Deployment) (op : ApplyOperation) (plane : Plane)
    (slots : OrderedMap String (List String)) : Program PlaneAck :=
  match op.planes.get plane with
  | none =>
      throw <| .rejection
        { kind := .envelopeMismatch
          message := s!"평면 '{plane.text}' 의 목표가 없다" }
  | some target =>
      if !deployment.pushesMembership then
        throw (.failure "이 배포는 멤버십 평면을 쓸 수 없다 (pushMembership 없음)")
      else do
        let tuple ← Program.judge (tupleFor op plane)
        let ack ← durably (.applyHealth tuple)
        effect (.pushMembership plane target.target.activationEpoch slots)
        return ack

/-- Abort each plane, and collect the refusals instead of stopping at one. -/
def abortPlanes (op : ApplyOperation) : List Plane → List String → Program (List String)
  | [], refused => return refused
  | plane :: rest, refused => do
      let outcome ← tryCatch (do
          let tuple ← Program.judge (tupleFor op plane)
          durably (.abort tuple)
          return none)
        fun thrown =>
          match thrown with
          | .rejection rejection => return some rejection.kind
          | other => throw other
      match outcome with
      | none => abortPlanes op rest refused
      | some kind => abortPlanes op rest (refused ++ [s!"{plane.text}: {kind.text}"])

/-- Give a transition up.  The right is let go of whatever the planes say. -/
def abortConfig (op : ApplyOperation) : Program Unit := do
  let refused ← abortPlanes op (planesOf op) []
  durably (.releaseHolderSlots op)
  Runner.finishOperation op (planesOf op)
  let s ← snapshot
  let reached ← Program.judge (reachedPhase s)
  durably (.closeJournal op reached)
  if refused ≠ [] then
    let listed := ", ".intercalate refused
    throw <| .rejection
      { kind := .terminal
        message := s!"일부 평면이 이미 끝나 있었다 — {listed}" }

def pointsAt (found : PublishedState) (expected : PublishRecord) : Bool :=
  found = .owned expected

/-- Publish and signal the baseline again, and say what came of it.  `none` asks
for another round, because the baseline moved. -/
def repair (expected : PublishRecord) (seen : PublishedState) (pointerOk : Bool) :
    Program (Option ReconcileResult) := do
  let lease := Lease.reconcile expected
  if !pointerOk then effect (.publish expected lease)
  effect (.signalReload lease)
  let midway ← snapshot
  match settled midway expected with
  | .unfinished pending => return some (.unfinished pending seen)
  | .moved => return none
  | .settled => do
      let afterPublish ← effect .observePublished
      let afterActive ← effect .observeActivation
      let restored := pointsAt afterPublish expected
        && provesActivation afterActive expected.generation
      let after ← snapshot
      match settled after expected with
      | .unfinished pending => return some (.unfinished pending afterPublish)
      | .settled =>
          if restored then return some (.repaired expected seen)
          else return some (.diverged expected afterPublish)
      | .moved => return some (.diverged expected afterPublish)

def reconcileRound : Program (Option ReconcileResult) := do
  let s ← snapshot
  match unfinishedIn s with
  | some pending => do
      let found ← effect .observePublished
      return some (.unfinished pending found)
  | none =>
      match s.lastActivated with
      | none =>
          match s.lastPublishIntent with
          | none => return some .noBaseline
          | some intent => do
              let found ← effect .observePublished
              return some (.dirty intent found)
      | some expected => do
          let seen ← effect .observePublished
          let activation ← effect .observeActivation
          let pointerOk := pointsAt seen expected
          let activeOk := provesActivation activation expected.generation
          let now ← snapshot
          if pointerOk && activeOk then
            match settled now expected with
            | .settled => return some (.converged expected)
            | .unfinished pending => return some (.unfinished pending seen)
            | .moved => return none
          else if normalizeNumeric expected.leaderToken < now.maxLeaderToken then
            return some (.diverged expected seen)
          else
            match settled now expected with
            | .unfinished pending => return some (.unfinished pending seen)
            | .moved => return none
            | .settled => repair expected seen pointerOk

/-- The rounds ran out while the baseline kept moving: look once, and never call
unconfirmed things converged. -/
def reconcileTail : Program ReconcileResult := do
  let s ← snapshot
  match s.lastActivated with
  | none => return .noBaseline
  | some baseline => do
      let found ← effect .observePublished
      let activation ← effect .observeActivation
      let observed := pointsAt found baseline
        && provesActivation activation baseline.generation
      let now ← snapshot
      match settled now baseline with
      | .unfinished pending => return .unfinished pending found
      | .settled => if observed then return .converged baseline
                    else return .diverged baseline found
      | .moved => return .diverged baseline found

def reconcileFrom : Nat → Program ReconcileResult
  | 0 => reconcileTail
  | rounds + 1 => do
      let outcome ← reconcileRound
      match outcome with
      | some result => return result
      | none => reconcileFrom rounds

def reconcileConfig : Program ReconcileResult := reconcileFrom 3

end Driver

/-- The operations of the driver that can change the agent's state or the world. -/
inductive DriverOp where
  | fence (leaderToken : Numeral)
  | applyConfig (op : ApplyOperation)
  | recoverConfig
  | abortConfig (op : ApplyOperation)
  | applyMembership (op : ApplyOperation) (plane : Plane)
      (slots : OrderedMap String (List String))
  | reconcileConfig
deriving DecidableEq, Repr

namespace DriverOp

def Answer : DriverOp → Type
  | fence _ => Nat
  | applyConfig _ | recoverConfig => ApplyResult
  | abortConfig _ => Unit
  | applyMembership _ _ _ => PlaneAck
  | reconcileConfig => ReconcileResult

def program (deployment : Deployment) : (o : DriverOp) → Program o.Answer
  | fence leaderToken => Driver.fence leaderToken
  | applyConfig op => Driver.applyConfig deployment op
  | recoverConfig => Driver.recoverConfig deployment
  | abortConfig op => Driver.abortConfig op
  | applyMembership op plane slots => Driver.applyMembership deployment op plane slots
  | reconcileConfig => Driver.reconcileConfig

end DriverOp

end Barycenter.Dp
