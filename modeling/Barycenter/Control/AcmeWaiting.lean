import Barycenter.Control.AcmeRunner

/-!
# Challenges that an order waits for

A poll is worth something only while the challenges of the order are placed and
accepted.  A step that starts an order sees to that before it lets the order be
polled.  The way of a failure does not: it leaves the order to be polled, removes
its challenges, and does so even when the authority has rejected the order.

The runs here are those of one runner.
-/

namespace Barycenter.Control

namespace AcmeWorld

/-! ## What an order waits for -/

def materialOf (authorization : CaAuthorization) (challenge : CaChallenge) : ChallengeMaterial :=
  ⟨challenge.type, authorization.domain, challenge.token⟩

/-- As long as the authorization is pending, a challenge of it is placed and has
been accepted. -/
def Tended (world : AcmeWorld Unit) (authzUrl : String) : Prop :=
  ∀ authorization ∈ world.ca.authorizations.get? authzUrl, authorization.pending = true →
    ∃ challenge ∈ authorization.challenges,
      materialOf authorization challenge ∈ world.placed ∧
        challenge.url ∈ world.ca.accepted

def Attended (world : AcmeWorld Unit) (url : String) : Prop :=
  ∀ caOrder ∈ world.ca.orders.get? url, ∀ authzUrl ∈ caOrder.authorizations,
    world.Tended authzUrl

/-- The authority has not been heard to reject the order, and its challenges are
attended to. -/
def Awaitable (world : AcmeWorld Unit) (order : AcmeOrder Unit) : Prop :=
  ∃ url, order.orderUrl = some url ∧ (order.id, url) ∉ world.ca.rejected ∧ world.Attended url

/-- If the next step polls, there is something to wait for. -/
def WaitsWell (world : AcmeWorld Unit) (order : AcmeOrder Unit) : Prop :=
  order.nextStep = .poll → world.Awaitable order

def inStep (world : AcmeWorld Unit) : Option String := (world.calls ()).writes

/-- Every order that no step is on waits for what is there. -/
def NeverIdles (world : AcmeWorld Unit) : Prop :=
  ∀ order ∈ world.orders, world.inStep ≠ some order.id → world.WaitsWell order

/-! ## Steps that do no harm -/

/-- The authorizations that a step has still to place a challenge for. -/
def unplaced : DriveStage → List String
  | .fetching left => left
  | .putting authzUrl _ _ left => authzUrl :: left
  | .placing authzUrl _ _ _ left => authzUrl :: left
  | .marking _ _ _ left => left
  | .accepting _ _ left => left
  | _ => []

def starting : DriveStage → Bool
  | .fetching _ => true
  | .putting _ _ _ _ => true
  | .placing _ _ _ _ _ => true
  | .marking _ _ _ _ => true
  | .accepting _ _ _ => true
  | .validating => true
  | _ => false

/-- The authorizations of an order that depend on what is placed now: all of them
if it is polled next, and those a challenge has been placed for if a step is
starting it. -/
def relies (world : AcmeWorld Unit) (order : AcmeOrder Unit) (authzUrl : String) : Prop :=
  match world.calls () with
  | .driving driven stage =>
      if driven.id = order.id ∧ starting stage = true then authzUrl ∉ unplaced stage
      else order.nextStep = .poll
  | _ => order.nextStep = .poll

/-- Material that no pending authorization depends on. -/
def Spare (world : AcmeWorld Unit) (material : ChallengeMaterial) : Prop :=
  ∀ order ∈ world.orders, ∀ url ∈ order.orderUrl, ∀ caOrder ∈ world.ca.orders.get? url,
    ∀ authzUrl ∈ caOrder.authorizations, world.relies order authzUrl →
      ∀ authorization ∈ world.ca.authorizations.get? authzUrl, authorization.pending = true →
        ∀ challenge ∈ authorization.challenges, materialOf authorization challenge ≠ material

/-- Whether the failure of a step gets into the row of its order. -/
def records (world : AcmeWorld Unit) (orderId : String) (fault : Fault) : Bool :=
  decide (fault ≠ .lost) && (world.updateOrder orderId (fail world.now)).isSome

/-- A failure is recorded only of an order that has no address yet, that is given up
for good or that there is something to wait for; a step stops without recording it
only when the order may be left as it stands; and material is removed only when no
pending authorization depends on it. -/
def Careful (event : Event (AcmeWorld Unit) (AcmeAction Unit)) : Prop :=
  match event.label with
  | .vanish material => event.before.Spare material
  | .sweepOrphan challenge fault => fault ≠ .lost → event.before.Spare challenge.material
  | .crash _ =>
      ∀ order ∈ event.before.orders, event.before.inStep = some order.id →
        event.before.WaitsWell order
  | .go _ answer =>
      match event.before.calls () with
      | .failing orderId =>
          ∀ order ∈ event.before.orders, order.id = orderId →
            if event.before.records orderId answer.fault then
              order.orderUrl = none ∨ order.attempts + 1 ≥ maxAttempts ∨
                event.before.Awaitable order
            else event.before.WaitsWell order
      | .cleaning (challenge :: _) =>
          answer.fault ≠ .lost → event.before.Spare challenge.material
      | _ => True
  | _ => True

/-! ## Invariant -/

/-- A challenge of an authorization, by its address and its material. -/
def Offers (world : AcmeWorld Unit) (authzUrl challengeUrl : String)
    (holds : CaAuthorization → ChallengeMaterial → Prop) : Prop :=
  ∃ authorization, world.ca.authorizations.get? authzUrl = some authorization ∧
    ∃ challenge ∈ authorization.challenges, challenge.url = challengeUrl ∧
      holds authorization (materialOf authorization challenge)

/-- The step is about to accept the challenge of an authorization that it has
placed. -/
def Placed (world : AcmeWorld Unit) (stage : DriveStage) (authzUrl : String) : Prop :=
  ∃ challengeUrl left, (stage = .accepting authzUrl challengeUrl left ∨
      ∃ challengeId, stage = .marking authzUrl challengeId challengeUrl left) ∧
    world.Offers authzUrl challengeUrl fun authorization material =>
      authorization.pending = true → material ∈ world.placed

def Started (world : AcmeWorld Unit) (order : AcmeOrder Unit) (stage : DriveStage) : Prop :=
  ∃ url caOrder, order.orderUrl = some url ∧ (order.id, url) ∉ world.ca.rejected ∧
    world.ca.orders.get? url = some caOrder ∧
    ∀ authzUrl ∈ caOrder.authorizations,
      authzUrl ∈ unplaced stage ∨ world.Placed stage authzUrl ∨ world.Tended authzUrl

/-- What a step works on is what the authority has given out. -/
def Chosen (world : AcmeWorld Unit) (id : String) : DriveStage → Prop
  | .putting authzUrl material challengeUrl _ =>
      world.Offers authzUrl challengeUrl fun _ offered => offered = material
  | .placing authzUrl _ material challengeUrl _ =>
      world.Offers authzUrl challengeUrl fun _ offered => offered = material
  | .recording url authorizations =>
      (id, url) ∉ world.ca.rejected ∧
        ∃ caOrder, world.ca.orders.get? url = some caOrder ∧
          caOrder.authorizations = authorizations
  | _ => True

/-- What the step in progress knows of the row of its order. -/
def StepReady (world : AcmeWorld Unit) (stage : DriveStage) (order : AcmeOrder Unit) : Prop :=
  match stage with
  | .account => world.WaitsWell order
  | .polling _ => world.WaitsWell order
  | _ => starting stage = true → world.Started order stage

def Ready (world : AcmeWorld Unit) : RunnerCall Unit → Prop
  | .driving driven stage =>
      world.Chosen driven.id stage ∧
        ∀ order ∈ world.orders, order.id = driven.id → world.StepReady stage order
  | .releasing orderId =>
      ∀ order ∈ world.orders, order.id = orderId → world.WaitsWell order
  | _ => True

structure Known (world : AcmeWorld Unit) : Prop where
  authorizations : ∀ url, ∀ caOrder ∈ world.ca.orders.get? url,
    ∀ authzUrl ∈ caOrder.authorizations, (world.ca.authorizations.get? authzUrl).isSome = true
  orders : ∀ order ∈ world.orders, ∀ url ∈ order.orderUrl,
    (world.ca.orders.get? url).isSome = true
  rejected : ∀ pair ∈ world.ca.rejected, ∃ caOrder,
    world.ca.orders.get? pair.2 = some caOrder ∧ caOrder.status = .invalid
  rows : ∀ order ∈ world.orders, order.id ∈ world.opened
  step : ∀ id, (world.calls ()).mentions = some id → id ∈ world.opened

structure Sound (world : AcmeWorld Unit) : Prop where
  known : world.Known
  ready : world.Ready (world.calls ())
  waits : world.NeverIdles

/-! ## What stays -/

structure Grows (before after : CertificateAuthority) : Prop where
  authorizations : ∀ url, ∀ authorization ∈ before.authorizations.get? url,
    ∃ now, after.authorizations.get? url = some now ∧ now.domain = authorization.domain ∧
      now.challenges = authorization.challenges ∧
      (now.pending = true → authorization.pending = true)
  orders : ∀ url, ∀ caOrder ∈ before.orders.get? url,
    ∃ now, after.orders.get? url = some now ∧ now.authorizations = caOrder.authorizations ∧
      (caOrder.status = .invalid → now.status = .invalid)
  accepted : before.accepted ⊆ after.accepted

theorem Grows.refl (ca : CertificateAuthority) : Grows ca ca where
  authorizations _ authorization found := ⟨authorization, found, rfl, rfl, id⟩
  orders _ caOrder found := ⟨caOrder, found, rfl, id⟩
  accepted := List.Subset.refl _

section Stays

variable {world after : AcmeWorld Unit} {order : AcmeOrder Unit} {url authzUrl : String}

/-- The material of the pending challenges of an authorization stays. -/
def Stays (world after : AcmeWorld Unit) (authzUrl : String) : Prop :=
  ∀ authorization ∈ world.ca.authorizations.get? authzUrl, authorization.pending = true →
    ∀ challenge ∈ authorization.challenges,
      materialOf authorization challenge ∈ world.placed →
        materialOf authorization challenge ∈ after.placed

theorem stays_of_subset (subset : world.placed ⊆ after.placed) : world.Stays after authzUrl :=
  fun _ _ _ _ _ placed => subset placed

theorem Tended.carried (tended : world.Tended authzUrl) (grows : Grows world.ca after.ca)
    (known : (world.ca.authorizations.get? authzUrl).isSome = true)
    (stays : world.Stays after authzUrl) : after.Tended authzUrl := by
  intro now found pending
  obtain ⟨authorization, before⟩ := Option.isSome_iff_exists.mp known
  obtain ⟨same, reached, domain, challenges, wasPending⟩ :=
    grows.authorizations authzUrl authorization before
  cases found.symm.trans reached
  obtain ⟨challenge, member, placed, accepted⟩ :=
    tended authorization before (wasPending pending)
  have still := stays authorization before (wasPending pending) challenge member placed
  refine ⟨challenge, challenges ▸ member, ?_, grows.accepted accepted⟩
  simpa only [materialOf, domain] using still

theorem Offers.carried {challengeUrl : String}
    {held holds : CaAuthorization → ChallengeMaterial → Prop}
    (offers : world.Offers authzUrl challengeUrl held) (grows : Grows world.ca after.ca)
    (kept : ∀ authorization ∈ world.ca.authorizations.get? authzUrl,
      ∀ challenge ∈ authorization.challenges, ∀ now : CaAuthorization,
        (now.pending = true → authorization.pending = true) →
        held authorization (materialOf authorization challenge) →
          holds now (materialOf authorization challenge)) :
    after.Offers authzUrl challengeUrl holds := by
  obtain ⟨authorization, found, challenge, member, named, held⟩ := offers
  obtain ⟨now, reached, domain, challenges, wasPending⟩ :=
    grows.authorizations authzUrl authorization found
  have same : materialOf now challenge = materialOf authorization challenge := by
    simp only [materialOf, domain]
  refine ⟨now, reached, challenge, challenges ▸ member, named, ?_⟩
  rw [same]
  exact kept authorization found challenge member now wasPending held

variable {stage : DriveStage}

theorem Placed.carried (held : world.Placed stage authzUrl)
    (grows : Grows world.ca after.ca) (stays : world.Stays after authzUrl) :
    after.Placed stage authzUrl := by
  obtain ⟨challengeUrl, left, at_stage, placed⟩ := held
  refine ⟨challengeUrl, left, at_stage, placed.carried grows ?_⟩
  intro authorization found challenge member now wasPending there pending
  exact stays authorization found (wasPending pending) challenge member
    (there (wasPending pending))

theorem Attended.carried (attended : world.Attended url) (grows : Grows world.ca after.ca)
    (known : world.Known) (there : (world.ca.orders.get? url).isSome = true)
    (stays : ∀ caOrder ∈ world.ca.orders.get? url, ∀ authzUrl ∈ caOrder.authorizations,
      world.Stays after authzUrl) : after.Attended url := by
  intro now found authzUrl member
  obtain ⟨caOrder, before⟩ := Option.isSome_iff_exists.mp there
  obtain ⟨same, reached, authorizations, _⟩ := grows.orders url caOrder before
  cases found.symm.trans reached
  rw [authorizations] at member
  exact (attended caOrder before authzUrl member).carried grows
    (known.authorizations url caOrder before authzUrl member)
    (stays caOrder before authzUrl member)

theorem WaitsWell.carried (waits : world.WaitsWell order) (member : order ∈ world.orders)
    (grows : Grows world.ca after.ca) (rejected : after.ca.rejected = world.ca.rejected)
    (known : world.Known)
    (stays : order.nextStep = .poll → ∀ url ∈ order.orderUrl,
      ∀ caOrder ∈ world.ca.orders.get? url, ∀ authzUrl ∈ caOrder.authorizations,
        world.Stays after authzUrl) : after.WaitsWell order := by
  intro polls
  obtain ⟨url, named, unrejected, attended⟩ := waits polls
  refine ⟨url, named, by rwa [rejected], ?_⟩
  exact attended.carried grows known (known.orders order member url named)
    (stays polls url named)

theorem WaitsWell.same {other : AcmeOrder Unit} (waits : world.WaitsWell order)
    (ids : other.id = order.id) (state : other.state = order.state)
    (url : other.orderUrl = order.orderUrl) : world.WaitsWell other := by
  intro polls
  unfold Awaitable
  rw [url, ids]
  refine waits ?_
  rwa [AcmeOrder.nextStep, ← state, ← url]

theorem Started.carried (started : world.Started order stage)
    (grows : Grows world.ca after.ca) (rejected : after.ca.rejected = world.ca.rejected)
    (known : world.Known)
    (stays : ∀ url ∈ order.orderUrl, ∀ caOrder ∈ world.ca.orders.get? url,
      ∀ authzUrl ∈ caOrder.authorizations, authzUrl ∉ unplaced stage →
        world.Stays after authzUrl) : after.Started order stage := by
  obtain ⟨url, caOrder, named, unrejected, found, each⟩ := started
  obtain ⟨now, reached, authorizations, _⟩ := grows.orders url caOrder found
  refine ⟨url, now, named, by rwa [rejected], reached, fun authzUrl member => ?_⟩
  rw [authorizations] at member
  by_cases waiting : authzUrl ∈ unplaced stage
  · exact .inl waiting
  · have there := known.authorizations url caOrder found authzUrl member
    have still := stays url named caOrder found authzUrl member waiting
    rcases each authzUrl member with unplaced | placed | tended
    · exact (waiting unplaced).elim
    · exact .inr (.inl (placed.carried grows still))
    · exact .inr (.inr (tended.carried grows there still))

theorem Chosen.carried {id : String} (chosen : world.Chosen id stage)
    (grows : Grows world.ca after.ca) (rejected : after.ca.rejected = world.ca.rejected) :
    after.Chosen id stage := by
  have offers {authzUrl challengeUrl : String} {material : ChallengeMaterial}
      (offered : world.Offers authzUrl challengeUrl fun _ offered => offered = material) :
      after.Offers authzUrl challengeUrl fun _ offered => offered = material :=
    offered.carried grows fun _ _ _ _ _ _ same => same
  cases stage with
  | putting authzUrl material challengeUrl left
    | placing authzUrl challengeId material challengeUrl left => exact offers chosen
  | recording url authorizations =>
      obtain ⟨unrejected, caOrder, found, same⟩ := chosen
      obtain ⟨now, reached, kept, _⟩ := grows.orders url caOrder found
      exact ⟨by rwa [rejected], now, reached, kept.trans same⟩
  | _ => trivial

end Stays

/-! ## Steps beside the runner -/

section Beside

variable {world after : AcmeWorld Unit}

/-- A step that changes no row that there is, and takes away only what nothing
relies on. -/
structure Beside (world after : AcmeWorld Unit) : Prop where
  grows : Grows world.ca after.ca
  rejected : after.ca.rejected = world.ca.rejected
  calls : after.calls = world.calls
  rows : ∀ order ∈ after.orders, order ∈ world.orders ∨
    order.nextStep = .start ∧ order.orderUrl = none ∧ order.id ∉ world.opened ∧
      order.id ∈ after.opened
  opened : world.opened ⊆ after.opened
  stays : ∀ order ∈ world.orders, ∀ url ∈ order.orderUrl,
    ∀ caOrder ∈ world.ca.orders.get? url, ∀ authzUrl ∈ caOrder.authorizations,
      world.relies order authzUrl → world.Stays after authzUrl
  authorizations : ∀ url, ∀ caOrder ∈ after.ca.orders.get? url,
    ∀ authzUrl ∈ caOrder.authorizations,
      (after.ca.authorizations.get? authzUrl).isSome = true

theorem isSome_of_grows {before now : CertificateAuthority} (grows : Grows before now)
    {url : String} (there : (before.orders.get? url).isSome = true) :
    (now.orders.get? url).isSome = true := by
  obtain ⟨caOrder, found⟩ := Option.isSome_iff_exists.mp there
  obtain ⟨same, reached, _⟩ := grows.orders url caOrder found
  exact Option.isSome_iff_exists.mpr ⟨same, reached⟩

theorem Known.beside (known : world.Known) (beside : world.Beside after) : after.Known where
  authorizations := beside.authorizations
  orders := by
    intro order member url named
    rcases beside.rows order member with old | ⟨_, none, _⟩
    · exact isSome_of_grows beside.grows (known.orders order old url named)
    · rw [none] at named
      cases named
  rejected := by
    rw [beside.rejected]
    intro pair member
    obtain ⟨caOrder, found, invalid⟩ := known.rejected pair member
    obtain ⟨now, reached, _, still⟩ := beside.grows.orders pair.2 caOrder found
    exact ⟨now, reached, still invalid⟩
  rows := by
    intro order member
    rcases beside.rows order member with old | ⟨_, _, _, there⟩
    · exact beside.opened (known.rows order old)
    · exact there
  step := by
    intro id on
    rw [beside.calls] at on
    exact beside.opened (known.step id on)

/-- An order that is polled next relies on all its authorizations, unless a step
is starting it. -/
theorem relies_of_polls {order : AcmeOrder Unit} (polls : order.nextStep = .poll)
    (idle : ∀ driven stage, world.calls () = .driving driven stage → driven.id = order.id →
      starting stage = false) (authzUrl : String) : world.relies order authzUrl := by
  unfold relies
  split
  · rename_i driven stage called
    rw [if_neg]
    · exact polls
    · rintro ⟨same, started⟩
      rw [idle driven stage called same] at started
      cases started
  · exact polls

theorem Sound.beside (sound : world.Sound) (beside : world.Beside after) : after.Sound where
  known := sound.known.beside beside
  ready := by
    rw [beside.calls]
    have ready := sound.ready
    cases called : world.calls () with
    | driving driven stage =>
        rw [called] at ready
        obtain ⟨chosen, rows⟩ := ready
        refine ⟨chosen.carried beside.grows beside.rejected, fun order member named => ?_⟩
        have old : order ∈ world.orders := by
          rcases beside.rows order member with old | ⟨_, _, fresh, _⟩
          · exact old
          · have on : (world.calls ()).mentions = some driven.id := by rw [called]; rfl
            rw [named] at fresh
            exact (fresh (sound.known.step driven.id on)).elim
        have row := rows order old named
        have waits (idle : starting stage = false) (waits : world.WaitsWell order) :
            after.WaitsWell order := by
          refine waits.carried old beside.grows beside.rejected sound.known ?_
          intro polls url named caOrder found authzUrl listed
          refine beside.stays order old url named caOrder found authzUrl listed ?_
          refine relies_of_polls polls (fun other stage' called' _ => ?_) authzUrl
          rw [called] at called'
          cases called'
          exact idle
        have started (row : starting stage = true → world.Started order stage) :
            starting stage = true → after.Started order stage := by
          intro starts
          refine (row starts).carried beside.grows beside.rejected sound.known ?_
          intro url there caOrder found authzUrl listed placed
          refine beside.stays order old url there caOrder found authzUrl listed ?_
          unfold relies
          rw [called]
          simp only [if_pos (And.intro named.symm starts)]
          exact placed
        cases stage with
        | account | polling url => exact waits rfl row
        | _ => exact started row
    | releasing orderId =>
        rw [called] at ready
        intro order member named
        have on : (world.calls ()).mentions = some orderId := by rw [called]; rfl
        rcases beside.rows order member with old | ⟨_, _, fresh, _⟩
        · refine (ready order old named).carried old beside.grows beside.rejected sound.known ?_
          intro polls url there caOrder found authzUrl listed
          refine beside.stays order old url there caOrder found authzUrl listed ?_
          refine relies_of_polls polls (fun other stage called' _ => ?_) authzUrl
          rw [called] at called'
          cases called'
        · rw [named] at fresh
          exact (fresh (sound.known.step orderId on)).elim
    | _ => trivial
  waits := by
    intro order member apart
    rw [inStep, beside.calls] at apart
    rcases beside.rows order member with old | ⟨starts, _⟩
    · refine (sound.waits order old apart).carried old beside.grows beside.rejected sound.known ?_
      intro polls url there caOrder found authzUrl listed
      refine beside.stays order old url there caOrder found authzUrl listed ?_
      refine relies_of_polls polls (fun driven stage called same => ?_) authzUrl
      rw [called] at apart
      exact (apart (congrArg some same)).elim
    · intro polls
      rw [starts] at polls
      cases polls

end Beside

/-! ## Steps of the runner -/

section Runner

variable {world after : AcmeWorld Unit} {id : String}

/-- Everything but the call of the runner is in order: the rows that no step is
on wait well. -/
structure Settled (world : AcmeWorld Unit) (id : String) : Prop where
  known : world.Known
  waits : ∀ order ∈ world.orders, order.id ≠ id → world.WaitsWell order
  here : id ∈ world.opened

structure Onward (world : AcmeWorld Unit) (id : String) (call : RunnerCall Unit) : Prop where
  ready : world.Ready call
  mentions : ∀ other, call.mentions = some other → other = id
  waits : call.writes = none → ∀ order ∈ world.orders, order.id = id → world.WaitsWell order

theorem onward_failing : world.Onward id (.failing id) where
  ready := trivial
  mentions _ named := (Option.some.inj named).symm
  waits none := by cases none

theorem mentions_of_writes {call : RunnerCall Unit} (writes : call.writes = some id) :
    call.mentions = some id := by
  cases call with
  | idle | listing orderId issued | cleaning challenges => cases writes
  | _ => exact writes

theorem Sound.settled (sound : world.Sound) (on : world.inStep = some id) : world.Settled id where
  known := sound.known
  waits order member other :=
    sound.waits order member fun same => other (Option.some.inj (on.symm.trans same)).symm
  here := sound.known.step id (mentions_of_writes on)

theorem Settled.become (settled : world.Settled id) {call : RunnerCall Unit}
    (onward : world.Onward id call) : (world.become () call).Sound where
  known :=
    { authorizations := settled.known.authorizations
      orders := settled.known.orders
      rejected := settled.known.rejected
      rows := settled.known.rows
      step := by
        intro wanted on
        change (Function.update world.calls () call ()).mentions = some wanted at on
        rw [Function.update_self] at on
        obtain rfl := onward.mentions wanted on
        exact settled.here }
  ready := by
    change world.Ready (Function.update world.calls () call ())
    rw [Function.update_self]
    exact onward.ready
  waits := by
    intro order member apart
    change (Function.update world.calls () call ()).writes ≠ some order.id at apart
    rw [Function.update_self] at apart
    change world.WaitsWell order
    by_cases same : order.id = id
    · cases writes : call.writes with
      | none => exact onward.waits writes order member same
      | some other =>
          rw [onward.mentions other (mentions_of_writes writes), ← same] at writes
          exact (apart writes).elim
    · exact settled.waits order member same

theorem Settled.attempt (settled : world.Settled id) {fault : Fault}
    {effect : Option (AcmeWorld Unit)} {next thrown : RunnerCall Unit}
    (effects : ∀ after, effect = some after →
      after.Settled id ∧ after.Onward id next ∧ after.Onward id thrown)
    (refused : world.Onward id thrown) :
    (world.attempt () fault effect next thrown).Sound := by
  unfold AcmeWorld.attempt
  split
  · obtain ⟨settled, onward, _⟩ := effects _ rfl
    exact settled.become onward
  · obtain ⟨settled, _, onward⟩ := effects _ rfl
    exact settled.become onward
  · exact settled.become refused

theorem Settled.wait (settled : world.Settled id) {fault : Fault} {next : RunnerCall Unit}
    (onward : world.Onward id next) :
    (world.attempt () fault (some world) next (.failing id)).Sound := by
  refine settled.attempt (fun after same => ?_) onward_failing
  cases same
  exact ⟨settled, onward, onward_failing⟩

variable {change : AcmeOrder Unit → AcmeOrder Unit}

theorem updateOrder_spec (updated : world.updateOrder id change = some after) :
    after = { world with orders := world.orders.map fun order =>
      if order.id = id then change order else order } := by
  unfold updateOrder at updated
  split at updated
  · exact (Option.some.inj updated).symm
  · cases updated

theorem Settled.updated (settled : world.Settled id)
    (updated : world.updateOrder id change = some after)
    (ids : ∀ order, (change order).id = order.id)
    (urls : ∀ order ∈ world.orders, order.id = id → ∀ url ∈ (change order).orderUrl,
      (world.ca.orders.get? url).isSome = true) :
    after.Settled id := by
  rw [updateOrder_spec updated]
  have origin : ∀ order ∈ (world.orders.map fun order =>
      if order.id = id then change order else order),
      (order ∈ world.orders ∧ order.id ≠ id) ∨
        ∃ old ∈ world.orders, old.id = id ∧ order = change old := by
    intro order member
    obtain ⟨old, there, rfl⟩ := List.mem_map.mp member
    split
    · rename_i same
      exact .inr ⟨old, there, same, rfl⟩
    · rename_i other
      exact .inl ⟨there, other⟩
  constructor
  case known =>
    constructor
    case authorizations => exact settled.known.authorizations
    case orders =>
      intro order member url named
      rcases origin order member with ⟨old, _⟩ | ⟨old, there, same, rfl⟩
      · exact settled.known.orders order old url named
      · exact urls old there same url named
    case rejected => exact settled.known.rejected
    case rows =>
      intro order member
      rcases origin order member with ⟨old, _⟩ | ⟨old, there, same, rfl⟩
      · exact settled.known.rows order old
      · rw [ids]
        exact settled.known.rows old there
    case step => exact settled.known.step
  case waits =>
    intro order member other
    rcases origin order member with ⟨old, _⟩ | ⟨old, there, same, rfl⟩
    · exact settled.waits order old other
    · rw [ids] at other
      exact (other same).elim
  case here => exact settled.here

theorem rows_of_updated
    (updated : world.updateOrder id change = some after) {order : AcmeOrder Unit}
    (member : order ∈ after.orders) (same : order.id = id) :
    ∃ old ∈ world.orders, old.id = id ∧ order = change old := by
  rw [updateOrder_spec updated] at member
  obtain ⟨old, there, rfl⟩ := List.mem_map.mp member
  split at same
  · rename_i mine
    rw [if_pos mine]
    exact ⟨old, there, mine, rfl⟩
  · rename_i other
    exact (other same).elim

theorem Settled.carried (settled : world.Settled id) (orders : after.orders = world.orders)
    (opened : after.opened = world.opened) (calls : after.calls = world.calls)
    (grows : Grows world.ca after.ca) (rejected : after.ca.rejected = world.ca.rejected)
    (given : after.ca.orders = world.ca.orders ∧
      after.ca.authorizations = world.ca.authorizations)
    (placed : world.placed ⊆ after.placed) : after.Settled id where
  known :=
    { authorizations := by
        rw [given.1, given.2]
        exact settled.known.authorizations
      orders := by
        rw [orders, given.1]
        exact settled.known.orders
      rejected := by
        rw [rejected, given.1]
        exact settled.known.rejected
      rows := by
        rw [orders, opened]
        exact settled.known.rows
      step := by
        rw [opened, calls]
        exact settled.known.step }
  waits order member other := by
    rw [orders] at member
    exact (settled.waits order member other).carried member grows rejected settled.known
      fun _ _ _ _ _ _ _ => stays_of_subset placed
  here := by
    rw [opened]
    exact settled.here

theorem Settled.rejected (settled : world.Settled id) {url : String} {caOrder : CaOrder}
    (found : world.ca.orders.get? url = some caOrder) (invalid : caOrder.status = .invalid) :
    (world.reject id url).Settled id where
  known :=
    { authorizations := settled.known.authorizations
      orders := settled.known.orders
      rejected := by
        intro pair member
        rcases List.mem_cons.mp member with rfl | old
        · exact ⟨caOrder, found, invalid⟩
        · exact settled.known.rejected pair old
      rows := settled.known.rows
      step := settled.known.step }
  waits order member other polls := by
    obtain ⟨named, there, unrejected, attended⟩ := settled.waits order member other polls
    refine ⟨named, there, fun told => ?_, attended⟩
    rcases List.mem_cons.mp told with same | old
    · exact other (Prod.mk.inj same).1
    · exact unrejected old
  here := settled.here

end Runner

/-! ## The start of an order -/

section Start

variable {world after : AcmeWorld Unit} {order driven : AcmeOrder Unit}
  {stage next : DriveStage}

theorem Started.onto (started : world.Started order stage)
    (unplaced : ∀ authzUrl ∈ unplaced stage,
      authzUrl ∈ AcmeWorld.unplaced next ∨ world.Placed next authzUrl)
    (placed : ∀ authzUrl, world.Placed stage authzUrl →
      world.Placed next authzUrl ∨ world.Tended authzUrl) :
    world.Started order next := by
  obtain ⟨url, caOrder, named, unrejected, found, each⟩ := started
  refine ⟨url, caOrder, named, unrejected, found, fun authzUrl member => ?_⟩
  rcases each authzUrl member with waiting | held | tended
  · rcases unplaced authzUrl waiting with still | held
    · exact .inl still
    · exact .inr (.inl held)
  · exact .inr (placed authzUrl held)
  · exact .inr (.inr tended)

theorem not_placed (idle : ∀ authzUrl challengeUrl left,
      stage ≠ .accepting authzUrl challengeUrl left)
    (unmarked : ∀ authzUrl challengeId challengeUrl left,
      stage ≠ .marking authzUrl challengeId challengeUrl left) (authzUrl : String) :
    ¬ world.Placed stage authzUrl := by
  rintro ⟨challengeUrl, left, accepting | ⟨challengeId, marking⟩, _⟩
  · exact idle _ _ _ accepting
  · exact unmarked _ _ _ _ marking

theorem chosen_mem {placers : Placers} {domains : List String}
    {authorization : CaAuthorization} {challenge : CaChallenge}
    (picked : chosen placers domains authorization = some challenge) :
    challenge ∈ authorization.challenges := by
  unfold chosen at picked
  dsimp only at picked
  split at picked
  · exact List.mem_of_find?_eq_some picked
  · cases picked

theorem onward_driving (chosen : world.Chosen driven.id stage)
    (rows : ∀ order ∈ world.orders, order.id = driven.id → world.StepReady stage order) :
    world.Onward driven.id (.driving driven stage) where
  ready := ⟨chosen, rows⟩
  mentions _ named := (Option.some.inj named).symm
  waits none := by cases none

theorem onward_releasing {id : String}
    (rows : ∀ order ∈ world.orders, order.id = id → world.WaitsWell order) :
    world.Onward id (.releasing id) where
  ready := rows
  mentions _ named := (Option.some.inj named).symm
  waits none := by cases none

theorem started_carried {id : String} (settled : world.Settled id)
    (rows : ∀ order ∈ world.orders, order.id = id → world.Started order stage)
    (orders : after.orders = world.orders) (grows : Grows world.ca after.ca)
    (rejected : after.ca.rejected = world.ca.rejected)
    (placed : world.placed ⊆ after.placed) :
    ∀ order ∈ after.orders, order.id = id → after.Started order stage := by
  intro order member same
  rw [orders] at member
  exact (rows order member same).carried grows rejected settled.known
    fun _ _ _ _ _ _ _ => stays_of_subset placed

theorem waitsWell_of_state (other : order.nextStep ≠ .poll) : world.WaitsWell order :=
  fun polls => (other polls).elim

theorem attended_of_started (started : world.Started order .validating) :
    ∃ url, order.orderUrl = some url ∧ (order.id, url) ∉ world.ca.rejected ∧
      world.Attended url := by
  obtain ⟨url, caOrder, named, unrejected, found, each⟩ := started
  refine ⟨url, named, unrejected, fun other same authzUrl member => ?_⟩
  cases found.symm.trans same
  rcases each authzUrl member with waiting | held | tended
  · cases waiting
  · exact (not_placed (by simp) (by simp) authzUrl held).elim
  · exact tended

theorem Sound.drive {placers : Placers} {answer : AcmeAnswer} (sound : world.Sound)
    (called : world.calls () = .driving driven stage) :
    (world.drive placers () answer driven stage).Sound := by
  have on : world.inStep = some driven.id := by rw [inStep, called]; rfl
  have settled := sound.settled on
  have ready := sound.ready
  rw [called] at ready
  obtain ⟨chosen, rows⟩ := ready
  cases stage with simp only [AcmeWorld.drive]
  | account =>
      refine settled.wait ?_
      unfold firstStage
      split
      · exact onward_driving trivial fun _ _ _ starts => by cases starts
      · exact onward_driving trivial fun order member same => rows order member same
      · exact onward_failing
      · exact onward_driving trivial fun _ _ _ starts => by cases starts
      · exact onward_failing
      · exact
          { ready := trivial
            mentions := fun _ named => by cases named
            waits := fun _ order member same => rows order member same }
  | ordering =>
      split
      · exact settled.become onward_failing
      · rename_i created given
        obtain ⟨found, open_⟩ := Option.filter_eq_some_iff.mp given
        refine settled.wait (onward_driving ⟨fun member => ?_, created, found, rfl⟩
          fun _ _ _ starts => by cases starts)
        obtain ⟨caOrder, there, invalid⟩ := settled.known.rejected _ member
        cases found.symm.trans there
        simp [invalid] at open_
  | recording url authorizations =>
      obtain ⟨unrejected, caOrder, found, listed⟩ := chosen
      refine settled.attempt (fun after updated => ?_) onward_failing
      have same := updateOrder_spec updated
      refine ⟨settled.updated updated (fun _ => rfl) fun order _ _ other named => ?_,
        onward_driving trivial fun order member mine _ => ?_, onward_failing⟩
      · cases named
        exact Option.isSome_iff_exists.mpr ⟨caOrder, found⟩
      · obtain ⟨old, _, oldMine, rfl⟩ := rows_of_updated updated member mine
        have ca : after.ca = world.ca := by rw [same]
        refine ⟨url, caOrder, rfl, ?_, by rw [ca]; exact found, fun authzUrl given => .inl ?_⟩
        · rw [ca]
          exact mine ▸ unrejected
        · exact listed ▸ given
  | fetching left =>
      cases left with
      | nil =>
          refine settled.become (onward_driving trivial fun order member same _ => ?_)
          exact (rows order member same rfl).onto (fun _ none => by cases none)
            fun authzUrl held => (not_placed (by simp) (by simp) authzUrl held).elim
      | cons url left =>
          simp only [AcmeWorld.drive]
          split
          · exact settled.become onward_failing
          · rename_i domain challenge picked
            obtain ⟨authorization, found, given⟩ := Option.bind_eq_some_iff.mp picked
            obtain ⟨offered, took, pair⟩ := Option.map_eq_some_iff.mp given
            obtain ⟨rfl, rfl⟩ := Prod.mk.inj pair
            refine settled.wait (onward_driving
              ⟨authorization, found, offered, chosen_mem took, rfl, rfl⟩
              fun order member same _ => ?_)
            exact (rows order member same rfl).onto (fun _ waiting => .inl waiting)
              fun authzUrl held => (not_placed (by simp) (by simp) authzUrl held).elim
  | putting authzUrl material challengeUrl left =>
      split
      · exact settled.become onward_failing
      · rename_i challengeId after put
        have same := putChallenge_spec put
        refine settled.attempt (fun made effect => ?_) onward_failing
        cases effect
        rw [same]
        refine ⟨settled.carried rfl rfl rfl (.refl _) rfl ⟨rfl, rfl⟩ (List.Subset.refl _),
          onward_driving chosen fun order member mine _ => ?_, onward_failing⟩
        exact (rows order member mine rfl).onto (fun _ waiting => .inl waiting)
          fun authzUrl held => (not_placed (by simp) (by simp) authzUrl held).elim
  | placing authzUrl challengeId material challengeUrl left =>
      have more : world.placed ⊆ (world.place material).placed := List.subset_cons_self _ _
      have carried : (world.place material).Settled driven.id :=
        settled.carried rfl rfl rfl (.refl _) rfl ⟨rfl, rfl⟩ more
      refine settled.attempt (fun made effect => ?_) onward_failing
      cases effect
      refine ⟨carried, onward_driving trivial fun order member mine _ => ?_, onward_failing⟩
      have started : (world.place material).Started order
          (.placing authzUrl challengeId material challengeUrl left) :=
        @started_carried world (world.place material) _ _ settled
          (fun order member same => rows order member same rfl) rfl (.refl _) rfl more order
          member mine
      refine started.onto (fun other waiting => ?_)
        fun other held => (not_placed (by simp) (by simp) other held).elim
      rcases List.mem_cons.mp waiting with rfl | later
      · refine .inr ⟨challengeUrl, left, .inr ⟨challengeId, rfl⟩, ?_⟩
        obtain ⟨authorization, found, challenge, offered, named, same⟩ := chosen
        refine ⟨authorization, found, challenge, offered, named, fun _ => ?_⟩
        rw [same]
        exact List.mem_cons_self
      · exact .inl later
  | marking authzUrl challengeId challengeUrl left =>
      refine settled.attempt (fun made effect => ?_) onward_failing
      cases effect
      refine ⟨settled.carried rfl rfl rfl (.refl _) rfl ⟨rfl, rfl⟩ (List.Subset.refl _),
        onward_driving trivial fun order member mine _ => ?_, onward_failing⟩
      refine (rows order member mine rfl).onto (fun _ waiting => .inl waiting) ?_
      rintro other ⟨otherUrl, otherLeft, accepting | ⟨otherId, marking⟩, placed⟩
      · cases accepting
      · cases marking
        exact .inl ⟨challengeUrl, left, .inl rfl, placed⟩
  | accepting authzUrl challengeUrl left =>
      have grows : Grows world.ca (world.acceptChallenge challengeUrl).ca :=
        { Grows.refl world.ca with accepted := List.subset_cons_self _ _ }
      refine settled.attempt (fun made effect => ?_) onward_failing
      cases effect
      refine ⟨settled.carried rfl rfl rfl grows rfl ⟨rfl, rfl⟩ (List.Subset.refl _),
        onward_driving trivial fun order member mine _ => ?_, onward_failing⟩
      have started : (world.acceptChallenge challengeUrl).Started order
          (.accepting authzUrl challengeUrl left) :=
        @started_carried world (world.acceptChallenge challengeUrl) _ _ settled
          (fun order member same => rows order member same rfl) rfl grows rfl
          (List.Subset.refl _) order member mine
      refine started.onto (fun _ waiting => .inl waiting) ?_
      rintro other ⟨otherUrl, otherLeft, accepting | ⟨otherId, marking⟩, placed⟩
      · cases accepting
        obtain ⟨authorization, found, challenge, offered, named, there⟩ := placed
        refine .inr fun same foundSame pending => ?_
        cases found.symm.trans foundSame
        exact ⟨challenge, offered, there pending, named ▸ List.mem_cons_self⟩
      · cases marking
  | validating =>
      refine settled.attempt (fun after updated => ?_) onward_failing
      have same := updateOrder_spec updated
      refine ⟨settled.updated updated (fun _ => rfl) fun order member _ url named =>
          settled.known.orders order member url named,
        onward_releasing fun order member mine => ?_, onward_failing⟩
      obtain ⟨old, there, oldMine, rfl⟩ := rows_of_updated updated member mine
      obtain ⟨url, named, unrejected, attended⟩ :=
        attended_of_started (rows old there oldMine rfl)
      subst same
      exact fun _ => ⟨url, named, unrejected, attended⟩
  | polling url =>
      split
      · exact settled.become onward_failing
      · rename_i found given
        split
        · rename_i invalid
          split
          · exact (settled.rejected given invalid).become onward_failing
          · exact settled.become onward_failing
        · exact settled.wait (onward_driving trivial fun _ _ _ starts => by cases starts)
        · exact settled.wait (onward_driving trivial fun _ _ _ starts => by cases starts)
        · exact settled.wait (onward_releasing fun order member same => rows order member same)
        · exact settled.wait (onward_releasing fun order member same => rows order member same)
  | readying =>
      refine settled.attempt (fun after updated => ?_) onward_failing
      refine ⟨settled.updated updated (fun _ => rfl) fun order member _ url named =>
          settled.known.orders order member url named,
        onward_releasing fun order member mine => ?_, onward_failing⟩
      obtain ⟨old, there, oldMine, rfl⟩ := rows_of_updated updated member mine
      exact waitsWell_of_state (by simp [AcmeOrder.nextStep, advance])
  | keying =>
      split
      · exact settled.wait (onward_driving trivial fun _ _ _ starts => by cases starts)
      · exact settled.wait (onward_driving trivial fun _ _ _ starts => by cases starts)
  | settingKey certKeyRef =>
      refine settled.attempt (fun after updated => ?_) onward_failing
      exact ⟨settled.updated updated (fun _ => rfl) fun order member _ url named =>
          settled.known.orders order member url named,
        onward_driving trivial (fun _ _ _ starts => by cases starts), onward_failing⟩
  | finalizing certKeyRef =>
      exact settled.wait (onward_driving trivial fun _ _ _ starts => by cases starts)
  | issuing certKeyRef issuedRef =>
      refine settled.attempt (fun after updated => ?_) onward_failing
      refine ⟨settled.updated updated (fun _ => rfl) fun order member _ url named =>
          settled.known.orders order member url named,
        { ready := trivial
          mentions := fun _ named => (Option.some.inj named).symm
          waits := fun _ order member mine => ?_ }, onward_failing⟩
      obtain ⟨old, there, oldMine, rfl⟩ := rows_of_updated updated member mine
      exact waitsWell_of_state (by simp [AcmeOrder.nextStep, markIssued])

end Start

/-! ## Runs -/

section Runs

variable {placers : Placers} {world after : AcmeWorld Unit}

theorem waitsWell_of_fail {order : AcmeOrder Unit} {now : Nat}
    (row : order.orderUrl = none ∨ order.attempts + 1 ≥ maxAttempts ∨ world.Awaitable order) :
    world.WaitsWell (fail now order) := by
  intro polls
  rcases row with none | spent | awaitable
  · unfold AcmeOrder.nextStep fail at polls
    by_cases spent : order.attempts + 1 ≥ maxAttempts
    · simp [spent] at polls
    · simp [spent, none] at polls
  · simp [AcmeOrder.nextStep, fail, spent] at polls
  · exact awaitable

theorem beside_remove {material : ChallengeMaterial} (known : world.Known)
    (spare : world.Spare material) (orders : after.orders = world.orders)
    (opened : after.opened = world.opened) (calls : after.calls = world.calls)
    (ca : after.ca = world.ca)
    (placed : after.placed = (world.remove material).placed) : world.Beside after where
  grows := ca ▸ .refl _
  rejected := by rw [ca]
  calls := calls
  rows order member := .inl (orders ▸ member)
  opened := opened ▸ List.Subset.refl _
  stays := by
    intro order member url named caOrder found authzUrl listed relied authorization given pending
      challenge offered there
    rw [placed]
    have other := spare order member url named caOrder found authzUrl listed relied authorization
      given pending challenge offered
    exact List.mem_filter.mpr ⟨there, decide_eq_true other⟩
  authorizations := by
    rw [ca]
    exact known.authorizations

theorem beside_clean (known : world.Known) {challenge : AcmeChallenge} {fault : Fault}
    (spare : fault ≠ .lost → world.Spare challenge.material)
    (orphans : List AcmeChallenge) :
    world.Beside { world.clean challenge fault with orphans := orphans } := by
  cases fault with
  | answered | unheard => exact beside_remove known (spare (by simp)) rfl rfl rfl rfl rfl
  | lost =>
      exact
        { grows := .refl _
          rejected := rfl
          calls := rfl
          rows := fun order member => .inl member
          opened := List.Subset.refl _
          stays := fun _ _ _ _ _ _ _ _ _ => stays_of_subset (List.Subset.refl _)
          authorizations := known.authorizations }

theorem beside_same (known : world.Known) (orders : after.orders = world.orders)
    (opened : after.opened = world.opened) (calls : after.calls = world.calls)
    (ca : after.ca = world.ca) (placed : after.placed = world.placed) : world.Beside after where
  grows := ca ▸ .refl _
  rejected := by rw [ca]
  calls := calls
  rows order member := .inl (orders ▸ member)
  opened := opened ▸ List.Subset.refl _
  stays := fun _ _ _ _ _ _ _ _ _ => stays_of_subset (placed ▸ List.Subset.refl _)
  authorizations := by
    rw [ca]
    exact known.authorizations

variable {url : String}

theorem grows_of_order {ca : CertificateAuthority} {now : CaOrder}
    (kept : ∀ caOrder ∈ ca.orders.get? url, now.authorizations = caOrder.authorizations ∧
      (caOrder.status = .invalid → now.status = .invalid)) :
    Grows ca { ca with orders := ca.orders.set url now } where
  authorizations _ authorization found := ⟨authorization, found, rfl, rfl, id⟩
  orders other caOrder found := by
    by_cases same : other = url
    · subst same
      exact ⟨now, OrderedMap.get?_set_same _ _ _, kept caOrder found⟩
    · exact ⟨caOrder, (OrderedMap.get?_set_other _ _ (Ne.symm same)).trans found, rfl, id⟩
  accepted := List.Subset.refl _

theorem grows_of_authorization {ca : CertificateAuthority} {now : CaAuthorization}
    (kept : ∀ authorization ∈ ca.authorizations.get? url, now.domain = authorization.domain ∧
      now.challenges = authorization.challenges ∧
      (now.pending = true → authorization.pending = true)) :
    Grows ca { ca with authorizations := ca.authorizations.set url now } where
  authorizations other authorization found := by
    by_cases same : other = url
    · subst same
      exact ⟨now, OrderedMap.get?_set_same _ _ _, kept authorization found⟩
    · exact ⟨authorization, (OrderedMap.get?_set_other _ _ (Ne.symm same)).trans found, rfl, rfl, id⟩
  orders _ caOrder found := ⟨caOrder, found, rfl, id⟩
  accepted := List.Subset.refl _

theorem beside_order (known : world.Known) {now : CaOrder}
    (kept : ∀ caOrder ∈ world.ca.orders.get? url, now.authorizations = caOrder.authorizations ∧
      (caOrder.status = .invalid → now.status = .invalid))
    (listed : ∀ authzUrl ∈ now.authorizations,
      (world.ca.authorizations.get? authzUrl).isSome = true) :
    world.Beside { world with ca := { world.ca with orders := world.ca.orders.set url now } } where
  grows := grows_of_order kept
  rejected := rfl
  calls := rfl
  rows order member := .inl member
  opened := List.Subset.refl _
  stays := fun _ _ _ _ _ _ _ _ _ => stays_of_subset (List.Subset.refl _)
  authorizations := by
    intro other caOrder found
    change (world.ca.orders.set url now).get? other = some caOrder at found
    rw [OrderedMap.get?_set] at found
    split at found
    · cases found
      exact listed
    · exact known.authorizations other caOrder found

theorem beside_authorization (known : world.Known) {now : CaAuthorization}
    (kept : ∀ authorization ∈ world.ca.authorizations.get? url,
      now.domain = authorization.domain ∧ now.challenges = authorization.challenges ∧
        (now.pending = true → authorization.pending = true)) :
    world.Beside { world with
      ca := { world.ca with authorizations := world.ca.authorizations.set url now } } where
  grows := grows_of_authorization kept
  rejected := rfl
  calls := rfl
  rows order member := .inl member
  opened := List.Subset.refl _
  stays := fun _ _ _ _ _ _ _ _ _ => stays_of_subset (List.Subset.refl _)
  authorizations := by
    intro other caOrder found authzUrl listed
    change ((world.ca.authorizations.set url now).get? authzUrl).isSome = true
    rw [OrderedMap.get?_set]
    split
    · rfl
    · exact known.authorizations other caOrder found authzUrl listed

theorem Sound.free (sound : world.Sound) (free : world.inStep = none) {id : String}
    (here : id ∈ world.opened) : world.Settled id where
  known := sound.known
  waits order member _ := sound.waits order member (by rw [free]; simp)
  here := here

theorem Sound.turn (sound : world.Sound) (free : world.inStep = none) {call : RunnerCall Unit}
    (ready : world.Ready call) (mentions : ∀ id, call.mentions = some id → id ∈ world.opened) :
    (world.become () call).Sound where
  known :=
    { authorizations := sound.known.authorizations
      orders := sound.known.orders
      rejected := sound.known.rejected
      rows := sound.known.rows
      step := by
        intro id on
        change (Function.update world.calls () call ()).mentions = some id at on
        rw [Function.update_self] at on
        exact mentions id on }
  ready := by
    change world.Ready (Function.update world.calls () call ())
    rw [Function.update_self]
    exact ready
  waits order member _ := sound.waits order member (by rw [free]; simp)

theorem onward_aside {id : String} {call : RunnerCall Unit} (ready : world.Ready call)
    (mentions : ∀ other, call.mentions = some other → other = id)
    (rows : ∀ order ∈ world.orders, order.id = id → world.WaitsWell order) :
    world.Onward id call where
  ready := ready
  mentions := mentions
  waits _ := rows

theorem Sound.claim {orderId : String} {fault : Fault} (sound : world.Sound)
    (taken : world.claim () orderId fault = some after) : after.Sound := by
  unfold AcmeWorld.claim at taken
  split at taken
  · rename_i order called found
    split at taken
    · cases taken
      have free : world.inStep = none := by rw [inStep, called]; rfl
      have named : order.id = orderId := by simpa using List.find?_some found
      have here : orderId ∈ world.opened :=
        named ▸ sound.known.rows order (List.mem_of_find?_eq_some found)
      have settled := sound.free free here
      have allWait : ∀ order ∈ world.orders, world.WaitsWell order := fun order member =>
        sound.waits order member (by rw [free]; simp)
      have idle {now : AcmeWorld Unit}
          (rows : ∀ order ∈ now.orders, order.id = orderId → now.WaitsWell order) :
          now.Onward orderId .idle :=
        onward_aside trivial (fun _ none => by cases none) rows
      refine settled.attempt (fun now updated => ?_) (idle fun order member _ =>
        allWait order member)
      have rows : ∀ order ∈ now.orders, order.id = orderId → now.WaitsWell order := by
        intro row member same
        obtain ⟨old, there, _, rfl⟩ := rows_of_updated updated member same
        rw [updateOrder_spec updated]
        exact (allWait old there).same rfl rfl rfl
      refine ⟨settled.updated updated (fun _ => rfl) fun order member _ url given =>
          sound.known.orders order member url given,
        ?_, idle rows⟩
      have onward := @onward_driving now (takeClaim ⟨(), world.now + leaseSeconds⟩ order)
        .account trivial fun row member same => rows row member (same.trans named)
      rwa [show (takeClaim ⟨(), world.now + leaseSeconds⟩ order).id = orderId from named]
        at onward
    · cases taken
  · cases taken

theorem Sound.proceed {answer : AcmeAnswer} (sound : world.Sound)
    (careful : Careful ⟨world, .go () answer, world.proceed placers () answer⟩) :
    (world.proceed placers () answer).Sound := by
  unfold Careful at careful
  dsimp only at careful
  unfold AcmeWorld.proceed
  cases called : world.calls () with
  | idle => exact sound
  | driving driven stage => exact sound.drive called
  | releasing orderId =>
      have on : world.inStep = some orderId := by rw [inStep, called]; rfl
      have settled := sound.settled on
      have ready := sound.ready
      rw [called] at ready
      refine settled.attempt (fun after updated => ?_) onward_failing
      refine ⟨settled.updated updated (fun _ => rfl) fun order member _ url named =>
          settled.known.orders order member url named,
        onward_aside trivial (fun _ none => by cases none) fun order member mine => ?_,
        onward_failing⟩
      obtain ⟨old, there, oldMine, rfl⟩ := rows_of_updated updated member mine
      rw [updateOrder_spec updated]
      exact (ready old there oldMine).same rfl rfl rfl
  | failing orderId =>
      have on : world.inStep = some orderId := by rw [inStep, called]; rfl
      have settled := sound.settled on
      rw [called] at careful
      have recorded {after : AcmeWorld Unit} (heard : answer.fault ≠ .lost)
          (updated : world.updateOrder orderId (fail world.now) = some after) :
          after.Settled orderId ∧
            ∀ order ∈ after.orders, order.id = orderId → after.WaitsWell order := by
        refine ⟨settled.updated updated (fun _ => rfl) fun order member _ url named =>
          settled.known.orders order member url named, fun order member mine => ?_⟩
        obtain ⟨old, there, oldMine, rfl⟩ := rows_of_updated updated member mine
        have row := careful old there oldMine
        rw [if_pos (by simp [records, heard, updated])] at row
        rw [updateOrder_spec updated]
        exact waitsWell_of_fail row
      have aside {now : AcmeWorld Unit}
          (rows : ∀ order ∈ now.orders, order.id = orderId → now.WaitsWell order) :
          now.Onward orderId .idle :=
        onward_aside trivial (fun _ none => by cases none) rows
      change (world.attempt () answer.fault (world.updateOrder orderId (fail world.now))
        (.listing orderId false) .idle).Sound
      unfold attempt
      split
      · rename_i after fault updated
        obtain ⟨settledAfter, rows⟩ := recorded (by rw [fault]; simp) updated
        exact settledAfter.become
          (onward_aside trivial (fun _ named => (Option.some.inj named).symm) rows)
      · rename_i after fault updated
        obtain ⟨settledAfter, rows⟩ := recorded (by rw [fault]; simp) updated
        exact settledAfter.become (aside rows)
      · rename_i unanswered unheard
        refine settled.become (aside fun order member mine => ?_)
        have row := careful order member mine
        rwa [if_neg] at row
        intro recorded
        obtain ⟨heard, changed⟩ := Bool.and_eq_true_iff.mp recorded
        obtain ⟨after, updated⟩ := Option.isSome_iff_exists.mp changed
        cases fault : answer.fault with
        | lost => exact of_decide_eq_true heard fault
        | answered => exact unanswered after fault updated
        | unheard => exact unheard after fault updated
  | listing orderId issued =>
      have free : world.inStep = none := by rw [inStep, called]; rfl
      have here : orderId ∈ world.opened := sound.known.step orderId (by rw [called]; rfl)
      have settled := sound.free free here
      have rows : ∀ order ∈ world.orders, order.id = orderId → world.WaitsWell order :=
        fun order member _ => sound.waits order member (by rw [free]; simp)
      have thrown : world.Onward orderId (if issued then .failing orderId else .idle) := by
        split
        · exact onward_failing
        · exact onward_aside trivial (fun _ none => by cases none) rows
      refine settled.attempt (fun after same => ?_) thrown
      cases same
      exact ⟨settled, onward_aside trivial (fun _ none => by cases none) rows, thrown⟩
  | cleaning challenges =>
      have free : world.inStep = none := by rw [inStep, called]; rfl
      cases challenges with
      | nil => exact sound.turn free trivial fun _ none => by cases none
      | cons challenge rest =>
          rw [called] at careful
          have cleaned : (world.clean challenge answer.fault).Sound := by
            have same : world.clean challenge answer.fault =
                { world.clean challenge answer.fault with orphans := world.orphans } := by
              cases answer.fault <;> rfl
            rw [same]
            exact sound.beside (beside_clean sound.known careful world.orphans)
          have calls : (world.clean challenge answer.fault).calls = world.calls := by
            cases answer.fault <;> rfl
          refine cleaned.turn ?_ trivial fun _ none => by cases none
          rw [inStep, calls]
          exact free

theorem sound_step {event : Event (AcmeWorld Unit) (AcmeAction Unit)}
    (step : Step placers event.before event.label event.after) (sound : event.before.Sound)
    (careful : Careful event) : event.after.Sound := by
  obtain ⟨before, action, after⟩ := event
  unfold Step at step
  dsimp only at step sound ⊢
  have known := sound.known
  cases action with simp only [act] at step
  | wait seconds | scanOrphans olderThanSeconds =>
      cases step
      exact sound.beside (beside_same known rfl rfl rfl rfl rfl)
  | openOrder id certificateKey domains =>
      simp only [act, openOrder] at step
      split at step
      · cases step
      · rename_i free
        cases step
        refine sound.beside
          { grows := .refl _
            rejected := rfl
            calls := rfl
            rows := fun order member => ?_
            opened := List.subset_cons_self _ _
            stays := fun _ _ _ _ _ _ _ _ _ => stays_of_subset (List.Subset.refl _)
            authorizations := known.authorizations }
        rcases List.mem_append.mp member with old | new
        · exact .inl old
        · obtain rfl := List.mem_singleton.mp new
          exact .inr ⟨rfl, rfl, (not_or.mp free).1, List.mem_cons_self⟩
  | deleteCertificate key =>
      cases step
      exact sound.beside
        { grows := .refl _
          rejected := rfl
          calls := rfl
          rows := fun order member => .inl (List.mem_of_mem_filter member)
          opened := List.Subset.refl _
          stays := fun _ _ _ _ _ _ _ _ _ => stays_of_subset (List.Subset.refl _)
          authorizations := known.authorizations }
  | caOrder url order =>
      split at step
      · cases step
      · rename_i given
        cases step
        obtain ⟨fresh, listed⟩ := not_or.mp given
        refine sound.beside (beside_order known (fun caOrder found => ?_) fun authzUrl member => ?_)
        · rw [Option.mem_def.mp found] at fresh
          exact (fresh rfl).elim
        · by_contra none
          exact listed ⟨authzUrl, member, by simpa using none⟩
  | caAuthorization url authorization =>
      split at step
      · cases step
      · rename_i fresh
        cases step
        refine sound.beside (beside_authorization known fun old found => ?_)
        rw [Option.mem_def.mp found] at fresh
        exact (fresh rfl).elim
  | caDecides url =>
      obtain ⟨authorization, found, rfl⟩ := Option.map_eq_some_iff.mp step
      refine sound.beside (beside_authorization known fun old given => ?_)
      cases found.symm.trans given
      exact ⟨rfl, rfl, fun pending => by cases pending⟩
  | caStatus url status =>
      obtain ⟨caOrder, found, rfl⟩ := Option.map_eq_some_iff.mp step
      obtain ⟨given, standing⟩ := Option.filter_eq_some_iff.mp found
      refine sound.beside (beside_order known (fun old there => ?_) ?_)
      · cases given.symm.trans there
        exact ⟨rfl, fun invalid => (of_decide_eq_true standing invalid).elim⟩
      · exact known.authorizations url caOrder given
  | vanish material =>
      cases step
      exact sound.beside (beside_remove known careful rfl rfl rfl rfl rfl)
  | claim runner orderId fault => exact sound.claim step
  | go runner answer =>
      cases step
      exact sound.proceed careful
  | crash runner =>
      cases step
      cases on : before.inStep with
      | none => exact sound.turn on trivial fun _ none => by cases none
      | some id =>
          refine (sound.settled on).become (onward_aside trivial (fun _ none => by cases none) ?_)
          exact fun order member same => careful order member (same ▸ on)
  | sweepOrphan challenge fault =>
      split at step
      · cases step
        exact sound.beside (beside_clean known careful _)
      · cases step

theorem sound_initial : Sound (initial : AcmeWorld Unit) where
  known :=
    { authorizations := fun _ _ found => by cases found
      orders := fun _ member => by cases member
      rejected := fun _ member => by cases member
      rows := fun _ member => by cases member
      step := fun _ none => by cases none }
  ready := trivial
  waits := fun _ member => by cases member

/-- As long as a failure leaves no order to be polled that there is nothing to wait
for, and nothing is removed that a pending authorization depends on, no order is
ever polled in vain. -/
theorem orders_never_idle {history : List (Event (AcmeWorld Unit) (AcmeAction Unit))}
    {final : AcmeWorld Unit} (run : Follows (Step placers) initial history final)
    (careful : ∀ event ∈ history, Careful event) :
    final.NeverIdles ∧ ∀ event ∈ history, event.before.NeverIdles := by
  have preserved : ∀ event ∈ history, Step placers event.before event.label event.after →
      event.before.Sound → event.after.Sound :=
    fun event member step sound => sound_step step sound (careful event member)
  have last := run.invariant_along Sound sound_initial preserved
  have throughout := run.throughout Sound sound_initial preserved
  exact ⟨last.waits, fun event member => (throughout event member).waits⟩

end Runs

/-! ## Concrete runs -/

instance (world : AcmeWorld Unit) (authzUrl : String) : Decidable (world.Tended authzUrl) :=
  inferInstanceAs (Decidable (∀ authorization ∈ world.ca.authorizations.get? authzUrl,
    authorization.pending = true → ∃ challenge ∈ authorization.challenges,
      materialOf authorization challenge ∈ world.placed ∧ challenge.url ∈ world.ca.accepted))

instance (world : AcmeWorld Unit) (url : String) : Decidable (world.Attended url) :=
  inferInstanceAs (Decidable (∀ caOrder ∈ world.ca.orders.get? url,
    ∀ authzUrl ∈ caOrder.authorizations, world.Tended authzUrl))

instance (world : AcmeWorld Unit) (order : AcmeOrder Unit) : Decidable (world.Awaitable order) :=
  inferInstanceAs (Decidable (∃ url ∈ order.orderUrl,
    (order.id, url) ∉ world.ca.rejected ∧ world.Attended url))

instance (world : AcmeWorld Unit) (order : AcmeOrder Unit) : Decidable (world.WaitsWell order) :=
  inferInstanceAs (Decidable (order.nextStep = .poll → world.Awaitable order))

instance (world : AcmeWorld Unit) : Decidable world.NeverIdles :=
  inferInstanceAs (Decidable (∀ order ∈ world.orders,
    world.inStep ≠ some order.id → world.WaitsWell order))

instance (world : AcmeWorld Unit) (order : AcmeOrder Unit) (authzUrl : String) :
    Decidable (world.relies order authzUrl) :=
  match called : world.calls () with
  | .driving driven stage =>
      decidable_of_iff (if driven.id = order.id ∧ starting stage = true then
        authzUrl ∉ unplaced stage else order.nextStep = .poll) (by simp only [relies, called])
  | .idle => decidable_of_iff (order.nextStep = .poll) (by simp only [relies, called])
  | .releasing _ => decidable_of_iff (order.nextStep = .poll) (by simp only [relies, called])
  | .failing _ => decidable_of_iff (order.nextStep = .poll) (by simp only [relies, called])
  | .listing _ _ => decidable_of_iff (order.nextStep = .poll) (by simp only [relies, called])
  | .cleaning _ => decidable_of_iff (order.nextStep = .poll) (by simp only [relies, called])

instance (world : AcmeWorld Unit) (material : ChallengeMaterial) :
    Decidable (world.Spare material) :=
  letI (authzUrl : String) : Decidable (∀ authorization ∈ world.ca.authorizations.get? authzUrl,
      authorization.pending = true →
        ∀ challenge ∈ authorization.challenges, materialOf authorization challenge ≠ material) :=
    inferInstance
  inferInstanceAs (Decidable (∀ order ∈ world.orders, ∀ url ∈ order.orderUrl,
    ∀ caOrder ∈ world.ca.orders.get? url, ∀ authzUrl ∈ caOrder.authorizations,
      world.relies order authzUrl →
        ∀ authorization ∈ world.ca.authorizations.get? authzUrl, authorization.pending = true →
          ∀ challenge ∈ authorization.challenges, materialOf authorization challenge ≠ material))

instance (event : Event (AcmeWorld Unit) (AcmeAction Unit)) : Decidable (Careful event) :=
  match event with
  | ⟨before, .vanish material, _⟩ => inferInstanceAs (Decidable (before.Spare material))
  | ⟨before, .sweepOrphan challenge fault, _⟩ =>
      inferInstanceAs (Decidable (fault ≠ .lost → before.Spare challenge.material))
  | ⟨before, .crash _, _⟩ =>
      inferInstanceAs (Decidable (∀ order ∈ before.orders, before.inStep = some order.id →
        before.WaitsWell order))
  | ⟨before, .go _ answer, _⟩ =>
      match called : before.calls () with
      | .failing orderId =>
          decidable_of_iff (∀ order ∈ before.orders, order.id = orderId →
            if before.records orderId answer.fault then
              order.orderUrl = none ∨ order.attempts + 1 ≥ maxAttempts ∨ before.Awaitable order
            else before.WaitsWell order) (by simp only [Careful, called])
      | .cleaning (challenge :: _) =>
          decidable_of_iff (answer.fault ≠ .lost → before.Spare challenge.material)
            (by simp only [Careful, called])
      | .cleaning [] => isTrue (by simp only [Careful, called])
      | .idle => isTrue (by simp only [Careful, called])
      | .driving _ _ => isTrue (by simp only [Careful, called])
      | .releasing _ => isTrue (by simp only [Careful, called])
      | .listing _ _ => isTrue (by simp only [Careful, called])
  | ⟨_, .wait _, _⟩ => isTrue trivial
  | ⟨_, .openOrder _ _ _, _⟩ => isTrue trivial
  | ⟨_, .deleteCertificate _, _⟩ => isTrue trivial
  | ⟨_, .caOrder _ _, _⟩ => isTrue trivial
  | ⟨_, .caAuthorization _ _, _⟩ => isTrue trivial
  | ⟨_, .caDecides _, _⟩ => isTrue trivial
  | ⟨_, .caStatus _ _, _⟩ => isTrue trivial
  | ⟨_, .claim _ _ _, _⟩ => isTrue trivial
  | ⟨_, .scanOrphans _, _⟩ => isTrue trivial

def oneChallenge : List (AcmeAction Unit) :=
  [.caAuthorization "authz"
      { domain := "a.test", challenges := [⟨.http01, "token", "challenge"⟩] },
    .caOrder "order" { authorizations := ["authz"] },
    .openOrder "o" "web" ["a.test"]]

/-- A claim, and waits of the runner that are answered. -/
def turn (steps : Nat) : List (AcmeAction Unit) :=
  .claim () "o" .answered :: List.replicate steps
    (.go () { url := "order", challengeId := "c", ref := "store://web@0123456789abcdef" })

/-- A wait that throws, and the waits in which that is recorded and cleaned up. -/
def throws (steps : Nat) : List (AcmeAction Unit) :=
  .go () { fault := .lost } :: List.replicate steps (.go () {})

def unfetched : List (AcmeAction Unit) := oneChallenge ++ turn 3 ++ throws 3

def pollFails : List (AcmeAction Unit) := oneChallenge ++ turn 11 ++ turn 1 ++ throws 4

/-- The authority tells that it has rejected the order. -/
def rejection : List (AcmeAction Unit) :=
  oneChallenge ++ turn 11 ++ [.caStatus "order" .invalid] ++ turn 5

/-- The challenge of an order that is still validated counts as an orphan. -/
def orphaned : List (AcmeAction Unit) :=
  oneChallenge ++ turn 11 ++ [.wait 3601, .scanOrphans 3600,
    .sweepOrphan ⟨"c", "o", ⟨.http01, "a.test", "token"⟩, some 0, none⟩ .answered]

theorem exists_idle (labels : List (AcmeAction Unit))
    (attempted : (execute (fun label world => (act ({} : Placers) world label).map (label, ·))
      labels initial).any (fun (_, final) => decide ¬ final.NeverIdles) = true) :
    ∃ history final, Follows (Step {}) (initial : AcmeWorld Unit) history final ∧
      history.map Event.label = labels ∧ ¬ final.NeverIdles := by
  obtain ⟨history, final, run, named, checked⟩ := follows_of_attempt _ _ attempted
  exact ⟨history, final, run, named, of_decide_eq_true checked⟩

theorem order_polled_in_vain :
    [unfetched, pollFails, rejection, orphaned].Forall fun labels =>
      ∃ history final, Follows (Step {}) (initial : AcmeWorld Unit) history final ∧
        history.map Event.label = labels ∧ ¬ final.NeverIdles := by
  refine List.forall_iff_forall_mem.mpr fun labels member => exists_idle labels ?_
  have all : ∀ labels ∈ [unfetched, pollFails, rejection, orphaned],
      (execute (fun label world => (act ({} : Placers) world label).map (label, ·))
        labels initial).any (fun (_, final) => decide ¬ final.NeverIdles) = true := by
    decide +kernel
  exact all labels member

/-- The first call to the authority fails, the order is started again and polled,
and it is issued and cleaned up. -/
theorem orders_never_idle_started_twice :
    ∃ history final, Follows (Step {}) (initial : AcmeWorld Unit) history final ∧
      (∃ event ∈ history, ∃ order ∈ event.before.orders, order.attempts = 1 ∧
        order.state = .validating) ∧
      (final.order? "o").map AcmeOrder.state = some .issued ∧ final.placed = [] ∧
      final.NeverIdles ∧ ∀ event ∈ history, event.before.NeverIdles := by
  obtain ⟨history, final, run, _, checked⟩ :=
    @follows_of_attempt _ _ (@act Unit _ {}) initial
      (oneChallenge ++ turn 1 ++ throws 3 ++ [.wait 60] ++ turn 11 ++
        [.caDecides "authz", .caStatus "order" .ready] ++ turn 4 ++ turn 8)
      (fun (history, final) =>
        decide (∀ event ∈ history, Careful event) &&
          (decide (∃ event ∈ history, ∃ order ∈ event.before.orders, order.attempts = 1 ∧
            order.state = .validating) &&
          (decide ((final.order? "o").map AcmeOrder.state = some .issued) &&
            decide (final.placed = []))))
      (by decide +kernel)
  simp only [Bool.and_eq_true, decide_eq_true_eq] at checked
  obtain ⟨careful, validated, issued, removed⟩ := checked
  exact ⟨history, final, run, validated, issued, removed, orders_never_idle run careful⟩

end AcmeWorld

end Barycenter.Control
