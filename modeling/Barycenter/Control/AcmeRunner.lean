import Barycenter.Foundation.History
import Barycenter.Foundation.OrderedMap
import Mathlib.Algebra.Group.Nat.Defs

/-!
# The runner of certificate orders

A runner claims an order for some time and takes it one step further: it orders
at the certificate authority and places the challenges, it polls, or it finalizes
and stores the certificate.  Every call to the authority, the placer or the
database is a wait, and may fail before or after it has taken effect.  No
statement that writes the row of an order asks who has claimed it.

Any number of runners work on one database.  A scan for orphans removes
challenge material on a timer of its own.
-/

namespace Barycenter.Control

inductive AcmeState where
  | pending
  | validating
  | ready
  | issued
  | failed
  | abandoned
deriving DecidableEq, Repr

def AcmeState.terminal : AcmeState → Bool
  | .issued => true
  | .abandoned => true
  | _ => false

/-- `claimed_by` and `claimed_until` -/
structure Lease (ι : Type) where
  holder : ι
  expiry : Nat
deriving DecidableEq, Repr

structure AcmeOrder (ι : Type) where
  id : String
  certificateKey : String
  domains : List String
  state : AcmeState := .pending
  orderUrl : Option String := none
  issuedRef : Option String := none
  certKeyRef : Option String := none
  attempts : Nat := 0
  nextAttemptAt : Nat := 0
  claim : Option (Lease ι) := none
deriving DecidableEq, Repr

inductive NextStep where
  | start
  | poll
  | finalize
  | nothing
deriving DecidableEq, Repr

def AcmeOrder.nextStep {ι : Type} (order : AcmeOrder ι) : NextStep :=
  match order.state with
  | .pending => .start
  | .validating => .poll
  | .ready => .finalize
  | .failed => if order.orderUrl.isNone then .start else .poll
  | .issued => .nothing
  | .abandoned => .nothing

inductive ChallengeType where
  | http01
  | dns01
deriving DecidableEq, Repr

structure ChallengeMaterial where
  type : ChallengeType
  domain : String
  token : String
deriving DecidableEq, Repr

/-! ## The certificate authority -/

structure CaChallenge where
  type : ChallengeType
  token : String
  url : String
deriving DecidableEq, Repr

structure CaAuthorization where
  domain : String
  wildcard : Bool := false
  challenges : List CaChallenge
  pending : Bool := true
deriving DecidableEq, Repr

inductive CaStatus where
  | pending
  | ready
  | processing
  | valid
  | invalid
deriving DecidableEq, Repr

structure CaOrder where
  authorizations : List String
  status : CaStatus := .pending
deriving DecidableEq, Repr

structure CertificateAuthority where
  orders : OrderedMap String CaOrder := .empty
  authorizations : OrderedMap String CaAuthorization := .empty
  /-- The challenges that were accepted. -/
  accepted : List String := []
  /-- The orders, by our identifier and that of the authority, whose rejection was
  told. -/
  rejected : List (String × String) := []

/-! ## Challenges in the database -/

structure AcmeChallenge where
  id : String
  orderId : String
  material : ChallengeMaterial
  placedAt : Option Nat := none
  cleanedAt : Option Nat := none
deriving DecidableEq, Repr

/-- `WHERE placed_at IS NOT NULL AND cleaned_at IS NULL` -/
def AcmeChallenge.lingers (challenge : AcmeChallenge) : Bool :=
  challenge.placedAt.isSome && challenge.cleanedAt.isNone

structure Placers where
  http : Bool := true
  dns : Bool := false

def challengeTypeWanted (httpAvailable : Bool) (authorization : CaAuthorization) : ChallengeType :=
  if authorization.wildcard || authorization.domain.startsWith "*." then .dns01
  else if httpAvailable then .http01
  else .dns01

def Placers.has (placers : Placers) : ChallengeType → Bool
  | .http01 => true
  | .dns01 => placers.dns

/-- The name is one that was ordered, or the name under an ordered wildcard. -/
def assertOrdered (domains : List String) (value : String) : Bool :=
  domains.any fun domain => decide (domain = value) || decide (domain = "*." ++ value)

/-- The challenge that is placed for an authorization, unless something about the
authorization is refused. -/
def chosen (placers : Placers) (domains : List String) (authorization : CaAuthorization) :
    Option CaChallenge :=
  let wanted := challengeTypeWanted placers.http authorization
  if assertOrdered domains authorization.domain && placers.has wanted then
    authorization.challenges.find? fun challenge => decide (challenge.type = wanted)
  else none

/-! ## Calls -/

inductive DriveStage where
  | account
  | ordering
  | recording (url : String) (authorizations : List String)
  | fetching (left : List String)
  | putting (authzUrl : String) (material : ChallengeMaterial) (challengeUrl : String)
      (left : List String)
  | placing (authzUrl challengeId : String) (material : ChallengeMaterial)
      (challengeUrl : String) (left : List String)
  | marking (authzUrl challengeId challengeUrl : String) (left : List String)
  | accepting (authzUrl challengeUrl : String) (left : List String)
  /-- All challenges are accepted. -/
  | validating
  | polling (url : String)
  /-- The authority has told that the order is ready. -/
  | readying
  | keying
  | settingKey (certKeyRef : String)
  | finalizing (certKeyRef : String)
  | issuing (certKeyRef issuedRef : String)
deriving DecidableEq, Repr

/-- A call holds the order as it was when it was claimed. -/
inductive RunnerCall (ι : Type) where
  | idle
  | driving (order : AcmeOrder ι) (stage : DriveStage)
  | releasing (orderId : String)
  | failing (orderId : String)
  /-- The challenges of an order that has failed, or that has been issued. -/
  | listing (orderId : String) (issued : Bool)
  | cleaning (challenges : List AcmeChallenge)
deriving DecidableEq, Repr

def RunnerCall.writes {ι : Type} : RunnerCall ι → Option String
  | .driving order _ => some order.id
  | .releasing orderId => some orderId
  | .failing orderId => some orderId
  | _ => none

def RunnerCall.mentions {ι : Type} : RunnerCall ι → Option String
  | .driving order _ => some order.id
  | .releasing orderId => some orderId
  | .failing orderId => some orderId
  | .listing orderId _ => some orderId
  | _ => none

inductive Fault where
  | answered
  /-- It throws and has not happened. -/
  | lost
  /-- It throws but has happened. -/
  | unheard
deriving DecidableEq, Repr

structure AcmeAnswer where
  fault : Fault := .answered
  /-- The order that the authority opens or has open already. -/
  url : String := ""
  challengeId : String := ""
  ref : String := ""
deriving DecidableEq, Repr

inductive AcmeAction (ι : Type) where
  | wait (seconds : Nat)
  | openOrder (id certificateKey : String) (domains : List String)
  /-- A certificate is deleted, and its orders and challenges with it. -/
  | deleteCertificate (key : String)
  | caOrder (url : String) (order : CaOrder)
  | caAuthorization (url : String) (authorization : CaAuthorization)
  /-- The authority has decided on an authorization. -/
  | caDecides (url : String)
  | caStatus (url : String) (status : CaStatus)
  /-- Placed material expires or is overwritten. -/
  | vanish (material : ChallengeMaterial)
  | claim (runner : ι) (orderId : String) (fault : Fault)
  | go (runner : ι) (answer : AcmeAnswer)
  | crash (runner : ι)
  | scanOrphans (olderThanSeconds : Nat)
  | sweepOrphan (challenge : AcmeChallenge) (fault : Fault)

structure AcmeWorld (ι : Type) where
  now : Nat := 0
  orders : List (AcmeOrder ι) := []
  /-- Every identifier of an order that there ever was. -/
  opened : List String := []
  challenges : List AcmeChallenge := []
  ca : CertificateAuthority := {}
  placed : List ChallengeMaterial := []
  calls : ι → RunnerCall ι
  /-- What scans for orphans have found and not yet removed. -/
  orphans : List AcmeChallenge := []

namespace AcmeWorld

variable {ι : Type}

def initial : AcmeWorld ι := { calls := fun _ => .idle }

def order? (world : AcmeWorld ι) (id : String) : Option (AcmeOrder ι) :=
  world.orders.find? fun order => decide (order.id = id)

/-! ## Statements -/

/-- `acme_order_live_uq`, `acme_order_terminal_unclaimed`, `acme_order_issued_has_ref` -/
def admissible (orders : List (AcmeOrder ι)) (order : AcmeOrder ι) : Bool :=
  (order.state.terminal ||
    orders.all fun other =>
      decide (other.id = order.id) || decide (other.certificateKey ≠ order.certificateKey) ||
        other.state.terminal) &&
  (!order.state.terminal || order.claim.isNone) &&
  (decide (order.state ≠ .issued) || order.issuedRef.isSome && order.certKeyRef.isSome)

/-- `UPDATE acme_orders SET … WHERE id=$1` -/
def updateOrder (world : AcmeWorld ι) (id : String) (change : AcmeOrder ι → AcmeOrder ι) :
    Option (AcmeWorld ι) :=
  if (world.order? id).all (fun order => admissible world.orders (change order)) then
    some { world with
      orders := world.orders.map fun order => if order.id = id then change order else order }
  else none

def recordOrderUrls (url : String) (order : AcmeOrder ι) : AcmeOrder ι :=
  { order with orderUrl := some url }

def advance (state : AcmeState) (order : AcmeOrder ι) : AcmeOrder ι :=
  { order with state := state }

def setCertKeyRef (ref : String) (order : AcmeOrder ι) : AcmeOrder ι :=
  { order with certKeyRef := some ref }

def markIssued (issuedRef certKeyRef : String) (order : AcmeOrder ι) : AcmeOrder ι :=
  { order with
    state := .issued
    issuedRef := some issuedRef
    certKeyRef := some certKeyRef
    claim := none }

def release (order : AcmeOrder ι) : AcmeOrder ι := { order with claim := none }

def maxAttempts : Nat := 8

def fail (now : Nat) (order : AcmeOrder ι) : AcmeOrder ι :=
  { order with
    attempts := order.attempts + 1
    state := if order.attempts + 1 ≥ maxAttempts then .abandoned else .failed
    nextAttemptAt := now + min (60 * 2 ^ order.attempts) 3600
    claim := none }

def leaseSeconds : Nat := 120

def takeClaim (lease : Lease ι) (order : AcmeOrder ι) : AcmeOrder ι :=
  { order with claim := some lease }

/-- Whether `claimDue` may pick an order.  It skips rows that others have locked,
so any of those that are due. -/
def due (world : AcmeWorld ι) (order : AcmeOrder ι) : Bool :=
  !order.state.terminal && decide (order.nextAttemptAt ≤ world.now) &&
    order.claim.all fun lease => decide (lease.expiry < world.now)

/-- A challenge of an order, a domain and a type is stored once: it takes the new
token, and keeps when it was placed and cleaned. -/
def putChallenge (world : AcmeWorld ι) (orderId challengeId : String) (material : ChallengeMaterial) :
    Option (String × AcmeWorld ι) :=
  if (world.order? orderId).isNone then none
  else
    let same (challenge : AcmeChallenge) : Bool :=
      decide (challenge.orderId = orderId) && decide (challenge.material.domain = material.domain) &&
        decide (challenge.material.type = material.type)
    match world.challenges.find? same with
    | some stored =>
        some (stored.id,
          { world with
            challenges := world.challenges.map fun challenge =>
              if same challenge then { challenge with material := material } else challenge })
    | none =>
        some (challengeId,
          { world with
            challenges := world.challenges ++
              [{ id := challengeId, orderId := orderId, material := material }] })

theorem putChallenge_spec {world after : AcmeWorld ι} {orderId challengeId stored : String}
    {material : ChallengeMaterial}
    (put : world.putChallenge orderId challengeId material = some (stored, after)) :
    after = { world with challenges := after.challenges } := by
  unfold putChallenge at put
  split at put
  · cases put
  · dsimp only at put
    split at put
    · cases put
      rfl
    · cases put
      rfl

def updateChallenge (world : AcmeWorld ι) (id : String)
    (change : AcmeChallenge → AcmeChallenge) : AcmeWorld ι :=
  { world with
    challenges := world.challenges.map fun challenge =>
      if challenge.id = id then change challenge else challenge }

def markPlaced (world : AcmeWorld ι) (id : String) : AcmeWorld ι :=
  world.updateChallenge id fun challenge =>
    { challenge with placedAt := some (challenge.placedAt.getD world.now) }

def markCleaned (world : AcmeWorld ι) (id : String) : AcmeWorld ι :=
  world.updateChallenge id fun challenge =>
    if challenge.placedAt.isSome then { challenge with cleanedAt := some world.now }
    else challenge

def place (world : AcmeWorld ι) (material : ChallengeMaterial) : AcmeWorld ι :=
  { world with placed := material :: world.placed }

def remove (world : AcmeWorld ι) (material : ChallengeMaterial) : AcmeWorld ι :=
  { world with placed := world.placed.filter fun other => decide (other ≠ material) }

def acceptChallenge (world : AcmeWorld ι) (url : String) : AcmeWorld ι :=
  { world with ca := { world.ca with accepted := url :: world.ca.accepted } }

def reject (world : AcmeWorld ι) (orderId url : String) : AcmeWorld ι :=
  { world with ca := { world.ca with rejected := (orderId, url) :: world.ca.rejected } }

/-- Remove the material of one challenge.  A removal that fails is only logged. -/
def clean (world : AcmeWorld ι) (challenge : AcmeChallenge) (fault : Fault) : AcmeWorld ι :=
  match fault with
  | .answered => (world.remove challenge.material).markCleaned challenge.id
  | .lost => world
  | .unheard => world.remove challenge.material

/-- The challenges that were placed and not cleaned, of orders that have ended or
for longer than a time. -/
def orphansOlderThan (world : AcmeWorld ι) (seconds : Nat) : List AcmeChallenge :=
  world.challenges.filter fun challenge =>
    challenge.lingers &&
      (world.order? challenge.orderId).any fun order =>
        order.state.terminal ||
          challenge.placedAt.any fun placedAt => decide (placedAt + seconds < world.now)

/-! ## Steps of a runner -/

variable [DecidableEq ι]

def become (world : AcmeWorld ι) (runner : ι) (call : RunnerCall ι) : AcmeWorld ι :=
  { world with calls := Function.update world.calls runner call }

/-- A call whose effect is `effect`, unless the database refuses it. -/
def attempt (world : AcmeWorld ι) (runner : ι) (fault : Fault) (effect : Option (AcmeWorld ι))
    (next thrown : RunnerCall ι) : AcmeWorld ι :=
  match fault, effect with
  | .answered, some after => after.become runner next
  | .unheard, some after => after.become runner thrown
  | _, _ => world.become runner thrown

def firstStage (order : AcmeOrder ι) : RunnerCall ι :=
  match order.nextStep, order.orderUrl with
  | .start, _ => .driving order .ordering
  | .poll, some url => .driving order (.polling url)
  | .poll, none => .failing order.id
  | .finalize, some _ => .driving order .keying
  | .finalize, none => .failing order.id
  | .nothing, _ => .idle

/-- What the authority makes of an order is anything; a step that gets this far
goes on with what it is given. -/
def drive (placers : Placers) (world : AcmeWorld ι) (runner : ι) (answer : AcmeAnswer)
    (order : AcmeOrder ι) (stage : DriveStage) : AcmeWorld ι :=
  let thrown : RunnerCall ι := .failing order.id
  let onto (stage : DriveStage) : RunnerCall ι := .driving order stage
  match stage with
  | .account => world.attempt runner answer.fault (some world) (firstStage order) thrown
  | .ordering =>
      match (world.ca.orders.get? answer.url).filter fun order =>
          decide (order.status ≠ .invalid) with
      | none => world.become runner thrown
      | some created =>
          world.attempt runner answer.fault (some world)
            (onto (.recording answer.url created.authorizations)) thrown
  | .recording url authorizations =>
      world.attempt runner answer.fault (world.updateOrder order.id (recordOrderUrls url))
        (onto (.fetching authorizations)) thrown
  | .fetching [] => world.become runner (onto .validating)
  | .fetching (url :: left) =>
      match (world.ca.authorizations.get? url).bind fun authorization =>
          (chosen placers order.domains authorization).map (authorization.domain, ·) with
      | none => world.become runner thrown
      | some (domain, challenge) =>
          world.attempt runner answer.fault (some world)
            (onto (.putting url ⟨challenge.type, domain, challenge.token⟩ challenge.url left)) thrown
  | .putting authzUrl material challengeUrl left =>
      match world.putChallenge order.id answer.challengeId material with
      | none => world.become runner thrown
      | some (challengeId, after) =>
          world.attempt runner answer.fault (some after)
            (onto (.placing authzUrl challengeId material challengeUrl left)) thrown
  | .placing authzUrl challengeId material challengeUrl left =>
      world.attempt runner answer.fault (some (world.place material))
        (onto (.marking authzUrl challengeId challengeUrl left)) thrown
  | .marking authzUrl challengeId challengeUrl left =>
      world.attempt runner answer.fault (some (world.markPlaced challengeId))
        (onto (.accepting authzUrl challengeUrl left)) thrown
  | .accepting _ challengeUrl left =>
      world.attempt runner answer.fault (some (world.acceptChallenge challengeUrl))
        (onto (.fetching left)) thrown
  | .validating =>
      world.attempt runner answer.fault (world.updateOrder order.id (advance .validating))
        (.releasing order.id) thrown
  | .polling url =>
      match world.ca.orders.get? url with
      | none => world.become runner thrown
      | some found =>
          match found.status with
          | .invalid =>
              (if answer.fault = .answered then world.reject order.id url else world).become runner
                thrown
          | .ready => world.attempt runner answer.fault (some world) (onto .readying) thrown
          | .valid => world.attempt runner answer.fault (some world) (onto .readying) thrown
          | .pending =>
              world.attempt runner answer.fault (some world) (.releasing order.id) thrown
          | .processing =>
              world.attempt runner answer.fault (some world) (.releasing order.id) thrown
  | .readying =>
      world.attempt runner answer.fault (world.updateOrder order.id (advance .ready))
        (.releasing order.id) thrown
  | .keying =>
      match order.certKeyRef with
      | none =>
          world.attempt runner answer.fault (some world) (onto (.settingKey answer.ref)) thrown
      | some ref => world.attempt runner answer.fault (some world) (onto (.finalizing ref)) thrown
  | .settingKey ref =>
      world.attempt runner answer.fault (world.updateOrder order.id (setCertKeyRef ref))
        (onto (.finalizing ref)) thrown
  | .finalizing certKeyRef =>
      world.attempt runner answer.fault (some world) (onto (.issuing certKeyRef answer.ref)) thrown
  | .issuing certKeyRef issuedRef =>
      world.attempt runner answer.fault
        (world.updateOrder order.id (markIssued issuedRef certKeyRef))
        (.listing order.id true) thrown

def proceed (placers : Placers) (world : AcmeWorld ι) (runner : ι) (answer : AcmeAnswer) :
    AcmeWorld ι :=
  match world.calls runner with
  | .idle => world
  | .driving order stage => world.drive placers runner answer order stage
  | .releasing orderId =>
      world.attempt runner answer.fault (world.updateOrder orderId release) .idle
        (.failing orderId)
  | .failing orderId =>
      world.attempt runner answer.fault (world.updateOrder orderId (fail world.now))
        (.listing orderId false) .idle
  | .listing orderId issued =>
      world.attempt runner answer.fault (some world)
        (.cleaning (world.challenges.filter fun challenge =>
          decide (challenge.orderId = orderId) && challenge.lingers))
        (if issued then .failing orderId else .idle)
  | .cleaning [] => world.become runner .idle
  | .cleaning (challenge :: rest) =>
      (world.clean challenge answer.fault).become runner (.cleaning rest)

/-- A claim that is taken but not heard of leaves the runner without the order. -/
def claim (world : AcmeWorld ι) (runner : ι) (orderId : String) (fault : Fault) :
    Option (AcmeWorld ι) :=
  match world.calls runner, world.order? orderId with
  | .idle, some order =>
      if world.due order then
        let lease : Lease ι := ⟨runner, world.now + leaseSeconds⟩
        some (world.attempt runner fault (world.updateOrder orderId (takeClaim lease))
          (.driving (takeClaim lease order) .account) .idle)
      else none
  | _, _ => none

def openOrder (world : AcmeWorld ι) (id certificateKey : String) (domains : List String) :
    Option (AcmeWorld ι) :=
  if id ∈ world.opened ∨
      ∃ order ∈ world.orders, order.certificateKey = certificateKey ∧ order.state.terminal = false
  then none
  else
    some { world with
      orders := world.orders ++
        [{ id := id, certificateKey := certificateKey, domains := domains,
           nextAttemptAt := world.now }]
      opened := id :: world.opened }

def deleteCertificate (world : AcmeWorld ι) (key : String) : AcmeWorld ι :=
  let gone := (world.orders.filter fun order => decide (order.certificateKey = key)).map
    AcmeOrder.id
  { world with
    orders := world.orders.filter fun order => decide (order.certificateKey ≠ key)
    challenges := world.challenges.filter fun challenge => decide (challenge.orderId ∉ gone) }

/-- An authorization stays decided; an order keeps its authorizations, and stays
rejected. -/
def act (placers : Placers) (world : AcmeWorld ι) : AcmeAction ι → Option (AcmeWorld ι)
  | .wait seconds => some { world with now := world.now + seconds }
  | .openOrder id certificateKey domains => world.openOrder id certificateKey domains
  | .deleteCertificate key => some (world.deleteCertificate key)
  | .caOrder url order =>
      if (world.ca.orders.get? url).isSome ∨
          ∃ authzUrl ∈ order.authorizations, (world.ca.authorizations.get? authzUrl).isNone then
        none
      else some { world with ca := { world.ca with orders := world.ca.orders.set url order } }
  | .caAuthorization url authorization =>
      if (world.ca.authorizations.get? url).isSome then none
      else
        some { world with
          ca := { world.ca with
            authorizations := world.ca.authorizations.set url authorization } }
  | .caDecides url =>
      (world.ca.authorizations.get? url).map fun authorization =>
        { world with
          ca := { world.ca with
            authorizations :=
              world.ca.authorizations.set url { authorization with pending := false } } }
  | .caStatus url status =>
      ((world.ca.orders.get? url).filter fun order => decide (order.status ≠ .invalid)).map
        fun order =>
          { world with
            ca := { world.ca with
              orders := world.ca.orders.set url { order with status := status } } }
  | .vanish material => some (world.remove material)
  | .claim runner orderId fault => world.claim runner orderId fault
  | .go runner answer => some (world.proceed placers runner answer)
  | .crash runner => some (world.become runner .idle)
  | .scanOrphans olderThanSeconds =>
      some { world with orphans := world.orphans ++ world.orphansOlderThan olderThanSeconds }
  | .sweepOrphan challenge fault =>
      if challenge ∈ world.orphans then
        some { world.clean challenge fault with orphans := world.orphans.erase challenge }
      else none

def Step (placers : Placers) (before : AcmeWorld ι) (action : AcmeAction ι)
    (after : AcmeWorld ι) : Prop :=
  before.act placers action = some after

end AcmeWorld

end Barycenter.Control
