import Barycenter.Dp.AgentLedger

/-!
# The guard in front of every durable write

`assertInvariants` compares the state about to be saved with the state it was
made from.  The clauses are checked in order and the first one that fails is
reported.
-/

namespace Barycenter.Dp

/-- The state is already wrong.  This is not a refusal of a request. -/
structure InvariantViolation where
  invariant : String
  message : String
deriving DecidableEq, Repr

def violatedIf (broken : Bool) (invariant message : String) : Option InvariantViolation :=
  if broken then some { invariant := invariant, message := message } else none

@[simp] theorem violatedIf_eq_none {broken : Bool} {invariant message : String} :
    violatedIf broken invariant message = none ↔ broken = false := by
  cases broken <;> simp [violatedIf]

def firstViolation (clauses : List (Option InvariantViolation)) :
    Option InvariantViolation :=
  clauses.findSome? id

theorem firstViolation_eq_none {clauses : List (Option InvariantViolation)} :
    firstViolation clauses = none ↔ ∀ clause ∈ clauses, clause = none := by
  simp [firstViolation]

def holderIsNewest (next : AgentState) : Option InvariantViolation :=
  match next.activeOperation with
  | none => none
  | some holder =>
      violatedIf (holder.leaderToken ≠ next.maxLeaderToken) "I1 최신 토큰만 변이"
        (s!"실행권을 쥔 토큰 {holder.leaderToken} 이 " ++
          s!"최신 {next.maxLeaderToken} 과 다르다")

/-- No reservation carries a token that has not been seen. -/
def reservationsAreSeen (next : AgentState) : Option InvariantViolation :=
  firstViolation <|
    Plane.all.flatMap fun plane =>
      (next.reservations.get plane).entries.map fun entry =>
        violatedIf (next.maxLeaderToken < entry.2.op.leaderToken) "I1 최신 토큰만 변이"
          (s!"{plane.text}:{entry.1} 예약이 최신보다 높은 토큰 " ++
            s!"{entry.2.op.leaderToken} 을 들고 있다")

/-- A stored publish record carries a token that has been seen. -/
def recordIsFenced (what : String) (stored : Option PublishRecord) (next : AgentState) :
    Option InvariantViolation :=
  match stored with
  | none => none
  | some record =>
      violatedIf (next.maxLeaderToken < normalizeNumeric record.leaderToken)
        "I5 intent 는 fenced"
        (s!"{what} 의 토큰 {record.leaderToken.text} 이 " ++
          s!"최신 {next.maxLeaderToken} 보다 높다")

def intentIsNew (before : Option PublishRecord) (intent : PublishRecord) : Bool :=
  match before with
  | none => true
  | some old =>
      old.operationId ≠ intent.operationId
        || old.transitionId ≠ intent.transitionId
        || old.generation ≠ intent.generation

def newIntentIsNewest (before next : AgentState) : Option InvariantViolation :=
  match next.lastPublishIntent with
  | none => none
  | some intent =>
      violatedIf
        (intentIsNew before.lastPublishIntent intent
          && normalizeNumeric intent.leaderToken ≠ next.maxLeaderToken)
        "I5 intent 는 fenced"
        (s!"새 intent 가 토큰 {intent.leaderToken.text} 으로 쓰였다 " ++
          s!"(최신 {next.maxLeaderToken})")

def tokenDoesNotRewind (before next : AgentState) : Option InvariantViolation :=
  violatedIf (next.maxLeaderToken < before.maxLeaderToken) "I3 되돌아가지 않는다"
    s!"리더 토큰이 {before.maxLeaderToken} 에서 {next.maxLeaderToken} 으로 되감겼다"

def coordinateDoesNotRewind (before next : AgentState) (plane : Plane) :
    Option InvariantViolation :=
  let was := (before.planes.get plane).activationEpoch
  let now := (next.planes.get plane).activationEpoch
  violatedIf (now < was) "I3 되돌아가지 않는다"
    s!"{plane.text} 좌표가 {was} 에서 {now} 로 되돌아갔다 — commit 은 취소되지 않는다"

def baselineComesFromCandidate (before next : AgentState) : Option InvariantViolation :=
  match next.lastActivated with
  | none => none
  | some baseline =>
      violatedIf
        (before.lastActivated ≠ some baseline
          && before.pendingActivation ≠ some baseline)
        "I6 기준은 후보를 거쳐서만 생긴다"
        s!"{baseline.generation} 이 후보를 거치지 않고 기준이 됐다"

/-- A candidate that arrived under an activated journal becomes the baseline. -/
def activationLeavesBaseline (before next : AgentState) : Option InvariantViolation :=
  match before.pendingActivation, next.journal with
  | some dropped, some entry =>
      violatedIf
        (candidateArrived next dropped
            (before.pendingEpochs.or (epochsFromJournal before dropped.identity))
          && entry.phase = .activated
          && next.pendingActivation.isNone
          && sameTransitionName entry.op.identity dropped.identity
          && next.lastActivated ≠ some dropped)
        "I6 활성화는 기준을 남긴다"
        s!"{dropped.generation} 을 활성화해 놓고 기준으로 올리지 않은 채 후보를 지웠다"
  | _, _ => none

/-- The record of a finished transition neither changes nor goes away while the
transition could come back. -/
def verdictIsKept (before next : AgentState) (entry : String × TerminalKind) :
    Option InvariantViolation :=
  match next.terminal.get? entry.1 with
  | none =>
      violatedIf
        (!terminalPrunable (before.terminalAt.get? entry.1) next entry.1
          (liveTransitionKeys next))
        "I7 판정은 지워지지 않는다"
        s!"종단 기록 {entry.1} 가 사라졌다 — 아직 부활 가능한 좌표다"
  | some now =>
      violatedIf (now ≠ entry.2) "I7 판정은 바뀌지 않는다"
        s!"{entry.1} 의 종단이 {entry.2.text} 에서 {now.text} 로 바뀌었다"

/-- The evidence for a coordinate a plane stands at is not dropped. -/
def standingEvidenceIsKept (next : AgentState) (name : String) :
    Option InvariantViolation :=
  violatedIf
    ((next.activationEvidence.get? name).isNone && (standingKeys next).contains name)
    "I7 서 있는 자리의 근거는 지워지지 않는다"
    s!"{name} 로 옮긴 근거가 사라졌다 — 지금 왜 여기 있는지 답할 수 없게 된다"

def journalDoesNotRewind (before next : AgentState) : Option InvariantViolation :=
  match before.journal, next.journal with
  | some was, some now =>
      violatedIf (now.seq < was.seq) "I3 되돌아가지 않는다"
        s!"저널 seq 가 {was.seq} 에서 {now.seq} 로 되감겼다"
  | _, _ => none

def standingClauses (next : AgentState) : List (Option InvariantViolation) :=
  [holderIsNewest next,
    reservationsAreSeen next,
    recordIsFenced "lastPublishIntent" next.lastPublishIntent next,
    recordIsFenced "lastActivated" next.lastActivated next,
    recordIsFenced "pendingActivation" next.pendingActivation next]

/-- The clauses about the step from the state it was made from. -/
def stepClauses (before next : AgentState) : List (Option InvariantViolation) :=
  [newIntentIsNewest before next, tokenDoesNotRewind before next]
    ++ Plane.all.map (coordinateDoesNotRewind before next)
    ++ [baselineComesFromCandidate before next, activationLeavesBaseline before next]
    ++ before.terminal.entries.map (verdictIsKept before next)
    ++ before.activationEvidence.keys.map (standingEvidenceIsKept next)
    ++ [journalDoesNotRewind before next]

/-- The guard.  The very first write has nothing to be compared with. -/
def assertInvariants (before : Option AgentState) (next : AgentState) :
    Option InvariantViolation :=
  firstViolation <|
    standingClauses next ++
      match before with
      | none => []
      | some before => stepClauses before next

end Barycenter.Dp
