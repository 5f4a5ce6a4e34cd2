import Barycenter.Dp.Wire

/-!
# The remote driver and the agent's server

A control plane that does not share a host with its data-plane agent calls the
agent's driver through two pieces of code: a client that turns each call into a
POST of JSON, and a server that reads the message, makes the call, and answers with
one of three things.  Status 200 carries a value, status 409 a rejection, and
everything else says that the agent could not be asked.

The name of the generation is checked on the way in and peer attributes are not
sent at all, so the two sides agree exactly on the calls that are indifferent to
both.
-/

namespace Barycenter.Dp.Remote

structure PeerAttrs where
  softMaxConns : Option Nat := none
  isBackup : Option Bool := none
deriving DecidableEq, Repr

abbrev Slots := OrderedMap String (List String)

abbrev SlotAttrs := OrderedMap String (OrderedMap String PeerAttrs)

/-- The names under which a driver can be called from another host. -/
inductive MethodName where
  | fence
  | applyConfig
  | recoverConfig
  | abortConfig
  | applyMembership
  | pushMembershipDirect
  | reconcileConfig
  | status
deriving DecidableEq, Repr

def MethodName.text : MethodName → String
  | .fence => "fence"
  | .applyConfig => "applyConfig"
  | .recoverConfig => "recoverConfig"
  | .abortConfig => "abortConfig"
  | .applyMembership => "applyMembership"
  | .pushMembershipDirect => "pushMembershipDirect"
  | .reconcileConfig => "reconcileConfig"
  | .status => "status"

def methods : List MethodName :=
  [.fence, .applyConfig, .recoverConfig, .abortConfig, .applyMembership,
    .pushMembershipDirect, .reconcileConfig, .status]

/-- The methods that answer with the result of an apply. -/
def MethodName.answersPhase (method : MethodName) : Bool :=
  method = .applyConfig || method = .recoverConfig

/-- A call of the driver.  No attributes and an empty table of them are one. -/
inductive DataplaneCall where
  | fence (leaderToken : Numeral)
  | applyConfig (op : ApplyOperation)
  | recoverConfig
  | abortConfig (op : ApplyOperation)
  | applyMembership (op : ApplyOperation) (plane : Plane) (slots : Slots)
  | pushMembershipDirect (plane : Plane) (epoch : Numeral) (slots : Slots) (attrs : SlotAttrs)
  | reconcileConfig
  | status

namespace DataplaneCall

def method : DataplaneCall → MethodName
  | .fence _ => .fence
  | .applyConfig _ => .applyConfig
  | .recoverConfig => .recoverConfig
  | .abortConfig _ => .abortConfig
  | .applyMembership _ _ _ => .applyMembership
  | .pushMembershipDirect _ _ _ _ => .pushMembershipDirect
  | .reconcileConfig => .reconcileConfig
  | .status => .status

def operation : DataplaneCall → Option ApplyOperation
  | .applyConfig op | .abortConfig op | .applyMembership op _ _ => some op
  | _ => none

def attrs : DataplaneCall → SlotAttrs
  | .pushMembershipDirect _ _ _ attrs => attrs
  | _ => .empty

def plain : DataplaneCall → DataplaneCall
  | .pushMembershipDirect plane epoch slots _ =>
      .pushMembershipDirect plane epoch slots .empty
  | call => call

def body : DataplaneCall → Json
  | .fence leaderToken => .record [("leaderToken", some (.string leaderToken.text))]
  | .applyConfig op | .abortConfig op => .record [("op", some (Wire.operationJson op))]
  | .applyMembership op plane slots =>
      .record
        [("op", some (Wire.operationJson op)), ("plane", some (.string plane.text)),
          ("slots", some (Wire.slotsJson slots))]
  | .pushMembershipDirect plane epoch slots _ =>
      .record
        [("plane", some (.string plane.text)), ("epoch", some (.string epoch.text)),
          ("slots", some (Wire.slotsJson slots))]
  | .recoverConfig | .reconcileConfig | .status => .record []

end DataplaneCall

inductive Outcome where
  | value (value : Json)
  | nothing
  | rejected (rejection : DpRejection)
  | thrown (message : String)

def applyPhases : List ApplyPhase :=
  [.preflight, .publishIntent, .published, .membershipStaged, .reloadIntent, .reloadObserved,
    .activated, .partiallyActivated, .partialExhausted, .failed, .superseded, .noOperation]

def knownPhase (phase : Option Json) : Bool :=
  match phase with
  | some (.string text) => applyPhases.any fun known => known.text = text
  | _ => false

/-- The driver that the agent's host runs.  A result of an apply has a phase. -/
structure AgentDriver where
  perform : DataplaneCall → Outcome
  typed : ∀ call, call.method.answersPhase = true →
    match perform call with
    | .value value => knownPhase (value.field? "phase") = true
    | .nothing => False
    | .rejected _ | .thrown _ => True

/-! ## The server -/

structure Peer where
  authorized : Bool
  commonName : Option String

structure Request where
  verb : String
  path : String
  peer : Peer
  body : Json

structure Response where
  status : Nat
  body : Json

structure AgentServer where
  driver : AgentDriver
  allowedClientNames : List String
  maxBody : Nat := 4 * 1024 * 1024

/-- `/^\/dp\/([A-Za-z]+)$/`, and a method of that name. -/
def methodAt (path : String) : Option MethodName :=
  methods.find? fun method => path = "/dp/" ++ method.text

def invoke (method : MethodName) (arguments : Json) : Except DpRejection DataplaneCall :=
  match method with
  | .fence => do
      let leaderToken ← Wire.decodeLeaderToken (arguments.field? "leaderToken")
      return .fence leaderToken
  | .applyConfig => do
      let op ← Wire.decodeApplyOperation (arguments.field? "op") "op"
      return .applyConfig op
  | .recoverConfig => return .recoverConfig
  | .abortConfig => do
      let op ← Wire.decodeApplyOperation (arguments.field? "op") "op"
      return .abortConfig op
  | .applyMembership => do
      let op ← Wire.decodeApplyOperation (arguments.field? "op") "op"
      let plane ← Wire.decodePlane (arguments.field? "plane") "plane"
      let slots ← Wire.decodeSlots (arguments.field? "slots") "slots"
      return .applyMembership op plane slots
  | .pushMembershipDirect => do
      let plane ← Wire.decodePlane (arguments.field? "plane") "plane"
      let epoch ← Wire.decodeEpoch (arguments.field? "epoch")
      let slots ← Wire.decodeSlots (arguments.field? "slots") "slots"
      return .pushMembershipDirect plane epoch slots .empty
  | .reconcileConfig => return .reconcileConfig
  | .status => return .status

def refusal (rejection : DpRejection) : Response where
  status := 409
  body := .record
    [("kind", some (.string rejection.kind.text)), ("message", some (.string rejection.message)),
      ("terminalState", rejection.terminalState.map fun state => .string state.text)]

def failure (status : Nat) (message : String) : Response where
  status := status
  body := .record [("message", some (.string message))]

def answer : Outcome → Response
  | .value value => { status := 200, body := value }
  | .nothing => { status := 200, body := .record [] }
  | .rejected rejection => refusal rejection
  | .thrown message => failure 500 message

/-- The call that reaches the driver, if one does, and the answer. -/
def AgentServer.handle (server : AgentServer) (request : Request) :
    Option DataplaneCall × Response :=
  if request.verb ≠ "POST" then (none, failure 405 "POST 만 받는다")
  else
    match methodAt request.path with
    | none => (none, failure 404 "모르는 메서드다")
    | some method =>
        if !request.peer.authorized then
          (none, failure 401 "검증된 클라이언트 인증서가 없다")
        else if !request.peer.commonName.any server.allowedClientNames.contains then
          (none, failure 403 "허용되지 않은 클라이언트다")
        else if server.maxBody < request.body.bytes then
          (none, failure 400 s!"본문이 {server.maxBody}바이트를 넘는다")
        else
          match invoke method request.body with
          | .error rejection => (none, refusal rejection)
          | .ok call => (some call, answer (server.driver.perform call))

/-! ## The client -/

inductive Seen where
  | value (value : Json)
  | rejected (kind message : String) (terminalState : Option Json)
  | unreachable (method : MethodName) (message : String) (status : Option Nat)

def maxResponseBytes : Nat := 4 * 1024 * 1024

/-- The first characters that fit into a number of UTF-16 units. -/
def unitsTaken : Nat → List Char → List Char
  | _, [] => []
  | room, char :: rest =>
      let units := if char.toNat < 65536 then 1 else 2
      if units ≤ room then char :: unitsTaken (room - units) rest else []

def excerpt (body : Json) : String :=
  String.ofList (unitsTaken 200 body.text.toList)

def unreachable (method : MethodName) (message : String) (status : Option Nat) : Seen :=
  .unreachable method s!"DP 에이전트에 못 물었다 ({method.text}): {message}" status

def receive (method : MethodName) (response : Response) : Seen :=
  let text := excerpt response.body
  if maxResponseBytes < response.body.bytes then
    unreachable method s!"응답이 {maxResponseBytes}바이트를 넘는다" none
  else if response.status = 409 then
    match response.body.field? "kind", response.body.field? "message" with
    | some (.string kind), some (.string message) =>
        .rejected kind message (response.body.field? "terminalState")
    | _, _ => unreachable method s!"거절 본문을 못 읽는다: {text}" (some 409)
  else if response.status ≠ 200 then
    unreachable method s!"상태 {response.status}: {text}" (some response.status)
  else .value response.body

/-- An answer whose phase is not known would stop a transition without a trace, so
it counts as no answer. -/
def checkedPhase (method : MethodName) : Seen → Seen
  | .value value =>
      let phase := value.field? "phase"
      if knownPhase phase then .value value
      else
        let got := (phase.map Json.text).getD "undefined"
        unreachable method s!"모르는 단계를 답했다: {got}" (some 200)
  | other => other

structure Link where
  peer : Peer
  server : AgentServer
  authorized : peer.authorized = true
  admitted : peer.commonName.any server.allowedClientNames.contains = true

namespace Link

def exchange (link : Link) (call : DataplaneCall) : Option DataplaneCall × Response :=
  link.server.handle
    { verb := "POST"
      path := "/dp/" ++ call.method.text
      peer := link.peer
      body := call.body }

def seen (link : Link) (call : DataplaneCall) : Seen :=
  let received := receive call.method (link.exchange call).2
  if call.method.answersPhase then checkedPhase call.method received else received

end Link

/-! ## Both sides together -/

/-- The caller of the remote driver gets what the caller of the driver gets: the
same value, the same rejection, or for any other end that the agent could not be
asked.  A call that returns nothing returns an empty object from afar. -/
def Faithful : Outcome → Seen → Prop
  | .value value, .value received => received = value
  | .nothing, .value received => received = .record []
  | .rejected rejection, .rejected kind message terminalState =>
      kind = rejection.kind.text ∧ message = rejection.message ∧
        terminalState = rejection.terminalState.map fun state => .string state.text
  | .thrown _, .unreachable _ _ _ => True
  | _, _ => False

/-- The agent's driver is asked that very call, and its end comes back. -/
def Link.Transparent (link : Link) (call : DataplaneCall) : Prop :=
  (link.exchange call).1 = some call ∧
    Faithful (link.server.driver.perform call) (link.seen call)

/-- The body of the answer to an end that is not an unexpected exception. -/
def answerBody : Outcome → Option Json
  | .thrown _ => none
  | outcome => some (answer outcome).body

/-- What the road asks of a call: a generation whose name is a piece of a path, no
attributes, and messages of at most the allowed size. -/
structure Link.Carries (link : Link) (call : DataplaneCall) : Prop where
  named : ∀ op ∈ call.operation, isPathSegment op.targetGeneration = true
  bare : call.attrs = .empty
  request : call.body.bytes ≤ link.server.maxBody
  response : ∀ body ∈ answerBody (link.server.driver.perform call),
    body.bytes ≤ maxResponseBytes

variable {call : DataplaneCall}

@[simp] theorem methodAt_path (method : MethodName) :
    methodAt ("/dp/" ++ method.text) = some method := by
  cases method <;> decide

theorem invoke_named (named : ∀ op ∈ call.operation, isPathSegment op.targetGeneration = true) :
    invoke call.method call.body = .ok call.plain := by
  cases call with
  | fence leaderToken =>
      simp [invoke, DataplaneCall.method, DataplaneCall.body, DataplaneCall.plain, Json.record,
        Json.field?, OrderedMap.lookup, Wire.decodeLeaderToken, bind, Except.bind, pure,
        Except.pure]
  | applyConfig op | abortConfig op =>
      have read := Wire.decodeApplyOperation_named "op" (named op rfl)
      simp [invoke, DataplaneCall.method, DataplaneCall.body, DataplaneCall.plain, Json.record,
        Json.field?, OrderedMap.lookup, read, bind, Except.bind, pure, Except.pure]
  | applyMembership op plane slots =>
      have read := Wire.decodeApplyOperation_named "op" (named op rfl)
      simp [invoke, DataplaneCall.method, DataplaneCall.body, DataplaneCall.plain, Json.record,
        Json.field?, OrderedMap.lookup, read, Wire.decodeSlots_slotsJson, bind, Except.bind,
        pure, Except.pure]
  | pushMembershipDirect plane epoch slots attrs =>
      simp [invoke, DataplaneCall.method, DataplaneCall.body, DataplaneCall.plain, Json.record,
        Json.field?, OrderedMap.lookup, Wire.decodeEpoch, Wire.decodeSlots_slotsJson, bind,
        Except.bind, pure, Except.pure]
  | recoverConfig | reconcileConfig | status => rfl

/-- Any other name is refused before the driver is asked, whatever the driver would
have said. -/
theorem invoke_unnamed {op : ApplyOperation} (operation : op ∈ call.operation)
    (unnamed : isPathSegment op.targetGeneration = false) :
    ∃ message, invoke call.method call.body =
      .error { kind := .malformedRequest, message := message } := by
  obtain ⟨message, refused⟩ := Wire.decodeApplyOperation_unnamed "op" unnamed
  refine ⟨message, ?_⟩
  cases call with
  | applyConfig _ | abortConfig _ | applyMembership _ _ _ =>
      obtain rfl : _ = op := Option.some.inj operation
      simp [invoke, DataplaneCall.method, DataplaneCall.body, Json.record, Json.field?,
        OrderedMap.lookup, refused, bind, Except.bind]
  | fence _ | recoverConfig | pushMembershipDirect _ _ _ _ | reconcileConfig | status =>
      simp [DataplaneCall.operation] at operation

namespace Link

variable {link : Link} {call : DataplaneCall}

theorem exchange_eq (link : Link) (call : DataplaneCall) :
    link.exchange call =
      if link.server.maxBody < call.body.bytes then
        (none, failure 400 s!"본문이 {link.server.maxBody}바이트를 넘는다")
      else
        match invoke call.method call.body with
        | .error rejection => (none, refusal rejection)
        | .ok invoked => (some invoked, answer (link.server.driver.perform invoked)) := by
  rw [exchange, AgentServer.handle]
  simp only [methodAt_path, link.authorized, link.admitted]
  rfl

theorem exchange_carried (named : ∀ op ∈ call.operation, isPathSegment op.targetGeneration = true)
    (request : call.body.bytes ≤ link.server.maxBody) :
    link.exchange call = (some call.plain, answer (link.server.driver.perform call.plain)) := by
  rw [exchange_eq, if_neg (Nat.not_lt.mpr request), invoke_named named]

theorem carried_of_reached (reached : (link.exchange call).1 = some call) :
    (∀ op ∈ call.operation, isPathSegment op.targetGeneration = true) ∧
      call.body.bytes ≤ link.server.maxBody ∧ call.plain = call := by
  rw [exchange_eq] at reached
  split at reached
  · cases reached
  · rename_i request
    have named : ∀ op ∈ call.operation, isPathSegment op.targetGeneration = true := by
      intro op operation
      by_contra unnamed
      obtain ⟨message, refused⟩ := invoke_unnamed operation (by simpa using unnamed)
      rw [refused] at reached
      cases reached
    rw [invoke_named named] at reached
    exact ⟨named, Nat.not_lt.mp request, Option.some.inj reached⟩

end Link

theorem DataplaneCall.plain_eq_iff : call.plain = call ↔ call.attrs = .empty := by
  cases call <;> simp [plain, attrs, eq_comm]

theorem fits_of_faithful {outcome : Outcome} {seen : Seen}
    (faithful : Faithful outcome seen)
    (large : ∀ body ∈ answerBody outcome, maxResponseBytes < body.bytes →
      ∃ method message status, seen = .unreachable method message status) :
    ∀ body ∈ answerBody outcome, body.bytes ≤ maxResponseBytes := by
  intro body member
  by_contra beyond
  obtain ⟨_, _, _, rfl⟩ := large body member (Nat.not_le.mp beyond)
  cases outcome with
  | thrown text => cases member
  | value _ | nothing | rejected _ => exact faithful

theorem receive_large (method : MethodName) {response : Response}
    (large : maxResponseBytes < response.body.bytes) :
    ∃ message, receive method response = .unreachable method message none :=
  ⟨_, if_pos large⟩

theorem receive_failure (method : MethodName) (message : String) :
    ∃ text status, receive method (failure 500 message) = .unreachable method text status := by
  by_cases large : maxResponseBytes < (failure 500 message).body.bytes
  · obtain ⟨text, unasked⟩ := receive_large method large
    exact ⟨text, none, unasked⟩
  · rw [receive, if_neg large]
    exact ⟨_, _, rfl⟩

theorem faithful_receive (method : MethodName) {outcome : Outcome}
    (fits : ∀ body ∈ answerBody outcome, body.bytes ≤ maxResponseBytes) :
    Faithful outcome (receive method (answer outcome)) := by
  cases outcome with
  | value value | nothing =>
      rw [receive, if_neg (Nat.not_lt.mpr (fits _ rfl))]
      rfl
  | rejected rejection =>
      rw [receive, if_neg (Nat.not_lt.mpr (fits _ rfl))]
      obtain ⟨kind, message, terminalState⟩ := rejection
      cases terminalState <;> exact ⟨rfl, rfl, rfl⟩
  | thrown message =>
      obtain ⟨text, status, unasked⟩ := receive_failure method message
      rw [answer, unasked]
      trivial

theorem faithful_checkedPhase {driver : AgentDriver} {received : Seen}
    (answers : call.method.answersPhase = true)
    (faithful : Faithful (driver.perform call) received) :
    Faithful (driver.perform call) (checkedPhase call.method received) := by
  have typed := driver.typed call answers
  cases received with
  | rejected _ _ _ | unreachable _ _ _ => exact faithful
  | value value =>
      cases outcome : driver.perform call with
      | value given =>
          rw [outcome] at typed faithful
          obtain rfl : value = given := faithful
          rw [checkedPhase, if_pos typed]
          rfl
      | nothing =>
          rw [outcome] at typed
          exact typed.elim
      | rejected _ | thrown _ =>
          rw [outcome] at faithful
          exact faithful.elim

theorem checkedPhase_unreachable {method : MethodName} {seen : Seen} {message : String}
    {status : Option Nat} (unasked : seen = .unreachable method message status) :
    checkedPhase method seen = .unreachable method message status := by
  rw [unasked]
  rfl

/-- A call that the road carries arrives as it was made and comes back as it ended,
and no other call does both. -/
theorem transparent_iff_carries (link : Link) (call : DataplaneCall) :
    link.Transparent call ↔ link.Carries call := by
  constructor
  · rintro ⟨reached, faithful⟩
    obtain ⟨named, request, plain⟩ := Link.carried_of_reached reached
    refine ⟨named, DataplaneCall.plain_eq_iff.mp plain, request, fits_of_faithful faithful ?_⟩
    intro body member large
    have carried := Link.exchange_carried named request
    have body_eq : (link.exchange call).2.body = body := by
      rw [carried, plain]
      cases outcome : link.server.driver.perform call with
      | thrown _ =>
          rw [outcome] at member
          cases member
      | value _ | nothing | rejected _ =>
          rw [outcome] at member
          exact Option.some.inj member
    obtain ⟨message, unasked⟩ :=
      receive_large call.method (body_eq ▸ large)
    refine ⟨call.method, message, none, ?_⟩
    rw [Link.seen, unasked]
    split
    · exact checkedPhase_unreachable rfl
    · rfl
  · rintro ⟨named, bare, request, response⟩
    have plain := DataplaneCall.plain_eq_iff.mpr bare
    have carried := Link.exchange_carried named request
    rw [plain] at carried
    refine ⟨by rw [carried], ?_⟩
    have received : Faithful (link.server.driver.perform call)
        (receive call.method (link.exchange call).2) := by
      rw [carried]
      exact faithful_receive call.method response
    rw [Link.seen]
    split
    · rename_i answers
      exact faithful_checkedPhase answers received
    · exact received

end Barycenter.Dp.Remote
