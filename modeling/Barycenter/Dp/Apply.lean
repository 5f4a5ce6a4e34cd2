import Barycenter.Foundation.Interaction
import Barycenter.Dp.Agent

/-!
# The apply runner

The runner drives one operation through its journal.  Each phase asks the
effects what the world looks like, writes the next phase, and comes back to the
top of the loop, where the journal is read again.  Between two waits the runner
reads one snapshot.
-/

namespace Barycenter.Dp

def RELOAD_ATTEMPT_LIMIT : Nat := 2

def PARTIAL_RETRY_LIMIT : Nat := 2

def HARD_LIMIT : Nat := 64

/-- How often an activation is looked for before the runner gives up waiting. -/
def POLL_ATTEMPTS : Nat := 25

structure PreflightResult where
  ok : Bool
  reason : Option String := none
  configTestErrored : Bool := false
deriving DecidableEq, Repr

/-- The check an effect makes right before it does what cannot be undone. -/
inductive Lease where
  | apply (op : ApplyOperation)
  | reconcile (expected : PublishRecord)
deriving DecidableEq, Repr

inductive EffectCall where
  | preflight (op : ApplyOperation)
  | publish (record : PublishRecord) (lease : Lease)
  | observePublished
  | signalReload (lease : Lease)
  | observeActivation
  | stageMembership (generation : String) (plane : Plane) (lease : Lease)
  | pushMembership (plane : Plane) (epoch : Numeral)
      (slots : OrderedMap String (List String))
deriving DecidableEq, Repr

def EffectCall.Answer : EffectCall → Type
  | preflight _ => PreflightResult
  | observePublished => PublishedState
  | observeActivation => Option ActivationEvidence
  | publish _ _ | signalReload _ | stageMembership _ _ _ | pushMembership _ _ _ => Unit

/-- The agent as the service of a program, and the effects as its world. -/
@[reducible] def dataplane : Interface where
  State := AgentState
  Fault := Thrown
  Op := AgentOp
  Reply := AgentOp.Reply
  Call := EffectCall
  Answer := EffectCall.Answer
  perform := serial

abbrev Program (α : Type) := Prog dataplane α

structure Deployment where
  stagesMembership : Bool
  pushesMembership : Bool
deriving DecidableEq, Repr

/-- One operation of the agent, durable when it returns. -/
def durably (op : AgentOp) : Program op.Reply := @Prog.perform dataplane op

def effect (request : EffectCall) : Program request.Answer := @Prog.ask dataplane request

def Program.judge {α : Type} : Except DpRejection α → Program α
  | .ok value => pure value
  | .error rejection => throw (Thrown.rejection rejection)

/-- Did this operation move the plane?  The signature answers. -/
def movedByMe (s : AgentState) (op : ApplyOperation) (plane : Plane) :
    Except DpRejection Bool := do
  let tuple ← tupleFor op plane
  let current := s.planes.get plane
  return current.activationEpoch = tuple.target.activationEpoch
    && authoredBy current op.identity

/-- How far the operation of the journal has come, counted over its own planes. -/
def reachedPhase (s : AgentState) : Except DpRejection (Option ApplyPhase) :=
  match s.journal with
  | none => .ok none
  | some entry => do
      let moved ← (planesOf entry.op).filterM (movedByMe s entry.op)
      if moved.length = (planesOf entry.op).length then return some .activated
      else if 0 < moved.length then return some .partialExhausted
      else return some .failed

def ownershipOf (s : AgentState) (op : ApplyOperation) : Except DpRejection Unit :=
  let token := normalizeNumeric op.leaderToken
  if token < s.maxLeaderToken then .error (staleLeader token s.maxLeaderToken)
  else
    match s.activeOperation with
    | none =>
        .error { kind := .notReserved
                 message := s!"{op.operationId}:{op.transitionId} 는 실행권이 없다" }
    | some holder =>
        if sameTransitionName holder.identity op.identity then .ok ()
        else
          .error { kind := .operationInFlight
                   message := s!"{holder.operationId}:{holder.transitionId} 가 " ++
                     "apply 경로를 쥐고 있다" }

def recordOf (op : ApplyOperation) : PublishRecord :=
  { generation := op.targetGeneration
    leaderToken := op.leaderToken
    operationId := op.operationId
    transitionId := op.transitionId
    generationDigest := op.generationDigest }

def noProgress : PerPlane (Option PlaneProgress) := { http := none, stream := none }

def progressOf (op : ApplyOperation) (mark : PlaneProgress) :
    PerPlane (Option PlaneProgress) :=
  (planesOf op).foldl (fun progress plane => progress.set plane (some mark)) noProgress

def emptyResult : ApplyResult :=
  { phase := .noOperation
    progress := noProgress
    partialTransition := false }

def resultOf (entry : JournalEntry) : ApplyResult :=
  { phase := entry.phase
    progress := entry.progress
    partialTransition :=
      entry.phase = .partiallyActivated || entry.phase = .partialExhausted
    evidence := entry.evidence
    failure := entry.failure }

/-- The planes of the journal's operation that did not commit. -/
def stuckPlanes (entry : JournalEntry) (progress : PerPlane (Option PlaneProgress)) :
    List Plane :=
  (planesOf entry.op).filter fun plane => progress.get plane ≠ some .committed

/-- The envelope names both planes and carries a target for exactly the planes
it names. -/
def assertEnvelope (op : ApplyOperation) : Except DpRejection Unit :=
  if op.affectedPlanes = [] then
    .error { kind := .emptyEnvelope
             message := "봉투가 어떤 평면도 말하지 않았다" }
  else
    match Plane.all.find? fun plane => !op.affectedPlanes.contains plane with
    | some plane =>
        .error { kind := .envelopeMismatch
                 message := "설정 apply 는 두 평면을 모두 선언해야 한다 — " ++
                   s!"'{plane.text}' 가 빠졌다. " ++
                   "하나의 nginx.conf 가 둘을 함께 바꾸므로, " ++
                   "비게 되는 평면도 좌표를 옮겨야 한다" }
    | none =>
        match op.affectedPlanes.find? fun plane => (op.planes.get plane).isNone with
        | some plane =>
            .error { kind := .envelopeMismatch
                     message := s!"평면 '{plane.text}' 를 건드린다고 했는데 목표가 없다" }
        | none =>
            match Plane.all.find? fun plane =>
                (op.planes.get plane).isSome && !op.affectedPlanes.contains plane with
            | some plane =>
                .error { kind := .envelopeMismatch
                         message := s!"평면 '{plane.text}' 의 목표가 실렸는데 봉투에 없다" }
            | none => .ok ()

namespace Runner

open Prog

/-- Losing the race for the next journal entry is not an error. -/
def ignoreConflict (program : Program Unit) : Program Unit :=
  tryCatch program fun thrown =>
    match thrown with
    | .rejection { kind := .journalConflict, .. } => pure ()
    | other => throw other

def ignoreRejection (program : Program Unit) : Program Unit :=
  tryCatch program fun thrown =>
    match thrown with
    | .rejection _ => pure ()
    | other => throw other

def write (entry : JournalEntry) : Program Unit := durably (.writeJournal entry)

def finishOperation (op : ApplyOperation) (releasePlanes : List Plane) : Program Unit :=
  durably (.finishOperation op releasePlanes)

/-- Ask again, in front of a side effect, whether the path is still ours. -/
def assertOwnership (op : ApplyOperation) : Program Unit := do
  let s ← snapshot
  Program.judge (ownershipOf s op)

/-- What was read of the world, or that it could not be read. -/
inductive Reading where
  | read (evidence : Option ActivationEvidence)
  | unread

def observeRead : Program Reading :=
  tryCatch (do
    let evidence ← effect .observeActivation
    return Reading.read evidence)
    fun _ => return Reading.unread

def Reading.seen : Reading → Option ActivationEvidence
  | .read evidence => evidence
  | .unread => none

def observe : Program (Option ActivationEvidence) := do
  let reading ← observeRead
  return reading.seen

/-- Look for the activation until it shows or the attempts run out. -/
def awaitFrom (target : String) :
    Nat → Option ActivationEvidence → Program (Option ActivationEvidence)
  | 0, last => return last
  | attempts + 1, _ => do
      let seen ← observe
      if provesActivation seen target then return seen
      else awaitFrom target attempts seen

def awaitActivation (target : String) : Program (Option ActivationEvidence) :=
  awaitFrom target POLL_ATTEMPTS none

/-- Mark each plane that moved as committed and fail the others. -/
def failPlanes (op : ApplyOperation) :
    List Plane → PerPlane (Option PlaneProgress) → Program (PerPlane (Option PlaneProgress))
  | [], progress => return progress
  | plane :: rest, progress => do
      let s ← snapshot
      let moved ← Program.judge (movedByMe s op plane)
      if moved then failPlanes op rest (progress.set plane (some .committed))
      else do
        let tuple ← Program.judge (tupleFor op plane)
        ignoreRejection (durably (.fail tuple))
        failPlanes op rest (progress.set plane (some .failed))

/-- Close every plane as failed and give the slots back, with the reason in the
journal. -/
def failAll (entry : JournalEntry) (reason : String) : Program Unit := do
  let progress ← failPlanes entry.op (planesOf entry.op) entry.progress
  let s ← snapshot
  let reached ← Program.judge (reachedPhase s)
  ignoreConflict <| write
    { entry with
      phase := reached.getD .failed
      progress := progress
      failure := some reason
      seq := entry.seq + 1 }
  finishOperation entry.op []

/-- Stage each plane: the coordinate first, then what it stands for.  A plane
that is refused does not stop the other. -/
def stagePlanes (deployment : Deployment) (op : ApplyOperation) :
    List Plane → PerPlane (Option PlaneProgress) → Nat →
      Program (PerPlane (Option PlaneProgress) × Nat)
  | [], staged, advanced => return (staged, advanced)
  | plane :: rest, staged, advanced => do
      let accepted ← tryCatch (do
          let tuple ← Program.judge (tupleFor op plane)
          let _ ← durably (.stage tuple)
          if deployment.stagesMembership then
            effect (.stageMembership op.targetGeneration plane (.apply op))
          return true)
        fun thrown =>
          match thrown with
          | .rejection _ => return false
          | other => throw other
      if accepted then
        stagePlanes deployment op rest (staged.set plane (some .staged)) (advanced + 1)
      else stagePlanes deployment op rest (staged.set plane (some .failed)) advanced

/-- Move the coordinate of each plane.  Only a refusal is a failed plane. -/
def commitPlanes (op : ApplyOperation) (evidence : ActivationEvidence) :
    List Plane → PerPlane (Option PlaneProgress) → Program (PerPlane (Option PlaneProgress))
  | [], progress => return progress
  | plane :: rest, progress => do
      let accepted ← tryCatch (do
          let tuple ← Program.judge (tupleFor op plane)
          let _ ← durably (.commit tuple evidence)
          return true)
        fun thrown =>
          match thrown with
          | .rejection _ => return false
          | other => throw other
      commitPlanes op evidence rest
        (progress.set plane (some (if accepted then .committed else .failed)))

def preflight (entry : JournalEntry) : Program Unit := do
  let check ← effect (.preflight entry.op)
  assertOwnership entry.op
  if !(check : PreflightResult).ok then
    let reason :=
      if check.configTestErrored then
        let cause := check.reason.getD "원인 없음"
        s!"설정 검사를 실행하지 못했다 — {cause}"
      else check.reason.getD "게시 전 검사 실패"
    failAll entry reason
  else
    ignoreConflict <| write
      { entry with
        phase := .publishIntent
        seq := entry.seq + 1 }

/-- The intent is on record but the publication may or may not have happened, so
look first. -/
def publishIntent (entry : JournalEntry) : Program Unit := do
  let seen ← effect .observePublished
  if !publishedByMe seen entry.op then
    durably (.recordPublishIntent (recordOf entry.op))
    effect (.publish (recordOf entry.op) (.apply entry.op))
  ignoreConflict <| write
    { entry with
      phase := .published
      seq := entry.seq + 1 }

def published (deployment : Deployment) (entry : JournalEntry) : Program Unit := do
  let (staged, advanced) ←
    stagePlanes deployment entry.op (planesOf entry.op) entry.progress 0
  if advanced = 0 then failAll entry "모든 평면이 더 진행할 수 없다"
  else
    ignoreConflict <| write
      { entry with
        phase := .membershipStaged
        progress := staged
        seq := entry.seq + 1 }

def membershipStaged (entry : JournalEntry) : Program Unit :=
  ignoreConflict <| write
    { entry with
      phase := .reloadIntent
      seq := entry.seq + 1 }

/-- Why the reload is given up: the world was read and showed something else, or
it could not be read at all. -/
def reloadExhausted (blind : Bool) (target : String) (seen : Option ActivationEvidence) :
    String :=
  if blind then
    "reload 를 보낸 뒤 활성화 관측 자체가 실패했다 — 세계의 상태를 모른다" ++
      s!" (기대 세대 {target}). 활성화가 안 일어났다는 뜻이 아니다:" ++
      " 세대가 이미 넘어가 있을 수 있다." ++
      " admin 소켓과 관측 예산을 먼저 보고, current 링크와 서빙 세대를 직접 확인한다"
  else
    let shown := (seen.map ActivationEvidence.json).getD "null"
    s!"reload 를 {RELOAD_ATTEMPT_LIMIT} 번 보냈는데 활성화가 관측되지 않았다" ++
      s!" (기대 세대 {target}, 관측 {shown})" ++
      " — 엔진의 error log 를 본다"

/-- Send the reload and write down what was seen of it, when the journal is
still ours. -/
def reload (entry : JournalEntry) : Program Unit := do
  effect (.signalReload (.apply entry.op))
  let after ← awaitActivation entry.op.targetGeneration
  match after with
  | none => pure ()
  | some evidence => do
      let s ← snapshot
      match s.journal with
      | none => pure ()
      | some now =>
          if ownsJournal s.journal entry.op then
            ignoreConflict <| write
              { now with
                phase :=
                  if provesActivation after entry.op.targetGeneration then .reloadObserved
                  else now.phase
                evidence := some evidence
                seq := now.seq + 1 }

/-- Only the runner that wins the entry sends the reload. -/
def winReload (entry : JournalEntry) : Program Bool :=
  tryCatch (do
      write { entry with
              reloadAttempts := entry.reloadAttempts + 1
              seq := entry.seq + 1 }
      return true)
    fun thrown =>
      match thrown with
      | .rejection { kind := .journalConflict, .. } => return false
      | other => throw other

/-- The signal may or may not have been sent, so look first.  A world that could
not be read is not signalled twice. -/
def reloadIntent (entry : JournalEntry) : Program Unit := do
  let target := entry.op.targetGeneration
  let reading ← observeRead
  let seen := reading.seen
  let blind := match reading with
    | .read _ => false
    | .unread => true
  if !blind && provesActivation seen target then
    ignoreConflict <| write
      { entry with
        phase := .reloadObserved
        evidence := seen.or entry.evidence
        seq := entry.seq + 1 }
  else if RELOAD_ATTEMPT_LIMIT ≤ entry.reloadAttempts
      || (blind && 0 < entry.reloadAttempts) then
    failAll entry (reloadExhausted blind target seen)
  else do
    let won ← winReload entry
    if won then reload entry

/-- Once the activation is proved the coordinates move, and the journal says how
far they got. -/
def commitObserved (entry : JournalEntry) (evidence : ActivationEvidence) :
    Program Unit := do
  let progress ← commitPlanes entry.op evidence (planesOf entry.op) entry.progress
  let committed := (planesOf entry.op).filter fun plane =>
    progress.get plane = some .committed
  let phase : ApplyPhase :=
    if committed.length = (planesOf entry.op).length then .activated
    else if committed.length = 0 then .failed
    else .partiallyActivated
  ignoreConflict <| write
    { entry with
      phase := phase
      progress := progress
      evidence := some evidence
      seq := entry.seq + 1 }
  if phase ≠ .partiallyActivated then
    finishOperation entry.op (stuckPlanes entry progress)

/-- Before an activation is granted the publication has to be ours still, and
the generation has to be seen again. -/
def reloadObserved (entry : JournalEntry) : Program Unit := do
  let target := entry.op.targetGeneration
  let stillMine ← effect .observePublished
  if !publishedByMe stillMine entry.op then
    ignoreConflict <| write
      { entry with
        phase := .publishIntent
        seq := entry.seq + 1 }
  else do
    let evidence ← awaitActivation target
    match evidence with
    | some seen =>
        if provesActivation evidence target then commitObserved entry seen
        else
          ignoreConflict <| write
            { entry with
              phase := .reloadIntent
              seq := entry.seq + 1 }
    | none =>
        ignoreConflict <| write
          { entry with
            phase := .reloadIntent
            seq := entry.seq + 1 }

/-- A partial activation is tried again, a bounded number of times. -/
def partiallyActivated (entry : JournalEntry) : Program (Option ApplyResult) := do
  if RELOAD_ATTEMPT_LIMIT + PARTIAL_RETRY_LIMIT ≤ entry.reloadAttempts then
    ignoreConflict <| write
      { entry with
        phase := .partialExhausted
        seq := entry.seq + 1 }
    finishOperation entry.op (stuckPlanes entry entry.progress)
    let s ← snapshot
    return some (resultOf (s.journal.getD entry))
  else if stuckPlanes entry entry.progress = [] then
    ignoreConflict <| write
      { entry with
        phase := .activated
        seq := entry.seq + 1 }
    return none
  else
    ignoreConflict <| write
      { entry with
        phase := .reloadObserved
        reloadAttempts := entry.reloadAttempts + 1
        seq := entry.seq + 1 }
    return none

/-- Do what the phase of the journal asks for.  `none` sends the runner back to
the top of its loop. -/
def phaseStep (deployment : Deployment) (entry : JournalEntry) :
    Program (Option ApplyResult) :=
  match entry.phase with
  | .preflight => do preflight entry; return none
  | .publishIntent => do publishIntent entry; return none
  | .published => do published deployment entry; return none
  | .membershipStaged => do membershipStaged entry; return none
  | .reloadIntent => do reloadIntent entry; return none
  | .reloadObserved => do reloadObserved entry; return none
  | .partiallyActivated => partiallyActivated entry
  | .activated | .partialExhausted | .failed | .superseded | .noOperation =>
      return some (resultOf entry)

def endings (s : AgentState) (op : ApplyOperation) :
    Except DpRejection (List (Option TerminalKind)) :=
  (planesOf op).mapM fun plane => do
    let tuple ← tupleFor op plane
    return terminalOf s tuple.identity plane

/-- One aborted plane abandons the transition; failed planes do when they all
failed. -/
def isClosed (kinds : List (Option TerminalKind)) : Bool :=
  kinds.contains (some .aborted)
    || kinds.all fun kind => kind = some .aborted || kind = some .failed

/-- Close the journal of a transition that was abandoned, and make room. -/
def closeAbandoned (s : AgentState) (entry : JournalEntry) : Program ApplyResult := do
  let reached ← Program.judge (reachedPhase s)
  durably (.closeJournal entry.op reached)
  finishOperation entry.op (planesOf entry.op)
  let after ← snapshot
  return resultOf <|
    match after.journal with
    | some closed => if isTerminalPhase closed.phase then closed else entry
    | none => entry

def cycleFailure (phase : ApplyPhase) : Thrown :=
  .failure (s!"apply 상태기계가 {HARD_LIMIT} 회 안에 끝나지 않았다 " ++
    s!"(phase={phase.text}). 전이 규칙에 사이클이 있다.")

def holdsPath (s : AgentState) (op : ApplyOperation) : Bool :=
  s.activeOperation.any fun holder => sameTransitionName holder.identity op.identity

/-- One turn of the loop.  A turn past the limit only gets as far as the checks
in front of the phases. -/
def driveTurn (deployment : Deployment) (bound : ApplyOperation) (pastLimit : Bool) :
    Program (Option ApplyResult) := do
  let s ← snapshot
  match s.journal with
  | none => return some emptyResult
  | some entry =>
      if !ownsJournal s.journal bound then
        -- The journal went to someone else.  Our own right is let go of.
        if holdsPath s bound then finishOperation bound []
        return some emptyResult
      else if isTerminalPhase entry.phase then
        if holdsPath s entry.op then
          finishOperation entry.op (stuckPlanes entry entry.progress)
        return some (resultOf entry)
      else do
        let kinds ← Program.judge (endings s entry.op)
        if isClosed kinds then
          let result ← closeAbandoned s entry
          return some result
        else do
          Program.judge (ownershipOf s entry.op)
          if pastLimit then throw (cycleFailure entry.phase)
          else phaseStep deployment entry

/-- The loop with its absolute bound: `remaining` more turns may act. -/
def driveLoop (deployment : Deployment) (bound : ApplyOperation) :
    Nat → Program ApplyResult
  | 0 => do
      let outcome ← driveTurn deployment bound true
      return outcome.getD emptyResult
  | remaining + 1 => do
      let outcome ← driveTurn deployment bound false
      match outcome with
      | some result => return result
      | none => driveLoop deployment bound remaining

/-- An effect over its budget ends the operation as failed, when the journal is
still the operation's own. -/
def drive (deployment : Deployment) (bound : ApplyOperation) : Program ApplyResult :=
  tryCatch (driveLoop deployment bound (HARD_LIMIT + 1)) fun thrown =>
    match thrown with
    | .effectTimeout timeout => do
        let s ← snapshot
        match s.journal with
        | some entry =>
            if ownsJournal s.journal bound then do
              failAll entry timeout.message
              let after ← snapshot
              return { resultOf (after.journal.getD entry) with
                       failure := some timeout.message }
            else return { emptyResult with failure := some timeout.message }
        | none => return { emptyResult with failure := some timeout.message }
    | other => throw other

def openingOf (op : ApplyOperation) : JournalOpening :=
  { op := op
    phase := .preflight
    reloadAttempts := 0
    progress := progressOf op .reserved }

def run (deployment : Deployment) (op : ApplyOperation) : Program ApplyResult := do
  Program.judge (assertEnvelope op)
  let _ ← durably (.reserveAll op (some (openingOf op)))
  drive deployment op

def recover (deployment : Deployment) : Program ApplyResult := do
  let s ← snapshot
  match s.journal with
  | none => do
      -- Nothing was written, so nothing happened.  The right is let go of.
      let _ ← durably .releaseIdleHolder
      return emptyResult
  | some entry =>
      if isTerminalPhase entry.phase then do
        finishOperation entry.op (stuckPlanes entry entry.progress)
        return resultOf entry
      else if normalizeNumeric entry.op.leaderToken < s.maxLeaderToken then do
        durably (.closeJournal entry.op (some .superseded))
        durably (.releaseStaleSlots entry.op)
        let after ← snapshot
        return resultOf (after.journal.getD entry)
      else do
        let _ ← durably (.reclaimOperation entry.op)
        drive deployment entry.op

end Runner

end Barycenter.Dp
