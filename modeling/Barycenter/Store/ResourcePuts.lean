import Barycenter.Store.RowsKept

/-!
# Putting a resource

A resource can be put exactly where its references resolve, its columns keep to
their constraints, and no column that a foreign key holds would change under a
referrer.  What the tables then show under its name is the resource as its row
gives it back.
-/

namespace Barycenter

namespace Store

open Config

/-! ## What fits the columns -/

def BackendColumnsFit (backend : Backend) : Prop :=
  keySyntax backend.key = true ∧ backend.host ≠ "" ∧
    (1 ≤ backend.port ∧ backend.port ≤ 65535) ∧ backend.weight < 2147483648 ∧
    backend.softMaxConns = none ∧ backend.isBackup = none

def PassthroughColumnsFit (route : PassthroughRoute) : Prop :=
  keySyntax route.key = true ∧ route.priority < 2147483648

def BindingColumnsFit (binding : SniCertificateBinding) : Prop :=
  keySyntax binding.key = true ∧ binding.hosts ≠ [] ∧ binding.override ≠ some {} ∧
    versionsInOrder (binding.override.bind TlsOverride.minVersion)
      (binding.override.bind TlsOverride.maxVersion) = true

/-- The columns of its row keep the resource as it is. -/
def ColumnsFit : Resource → Prop
  | .engine settings => EngineFits settings
  | .pool pool => PoolFits pool
  | .backend backend => BackendColumnsFit backend
  | .certificate certificate => CertificateFits certificate
  | .tlsPolicy policy => TlsPolicyFits policy
  | .addressSet set => AddressSetFits set
  | .listener listener => ListenerColumnsFit listener
  | .httpRoute route => HttpRouteColumnsFit route
  | .passthroughRoute route => PassthroughColumnsFit route
  | .sniBinding binding => BindingColumnsFit binding

/-! ## The model that the tables hold -/

theorem mem_resourcesOf {collation : Collation} {α β : Type} {resourceOf : String → α → β}
    {table : OrderedMap String α} {item : β} :
    item ∈ resourcesOf collation resourceOf table ↔
      ∃ key row, table.get? key = some row ∧ resourceOf key row = item := by
  have sorted : (collation.inOrder table).Perm table.entries := List.mergeSort_perm _ _
  simp only [resourcesOf, List.mem_map, sorted.mem_iff, Prod.exists, OrderedMap.mem_entries_iff]

def heldModel (tables : Tables) : Model := readModel characterOrder tables

theorem Family.holds_read {β R : Type} {family : Family β R} {tables stored : Tables}
    {collation : Collation}
    (faithful : ∀ key row, (family.table tables).get? key = some row →
      family.row stored (family.resource key row) = .ok row) :
    family.Holds stored (resourcesOf collation family.resource (family.table tables))
      (family.table tables) := by
  intro key row
  simp only [mem_resourcesOf]
  constructor
  · intro found
    exact ⟨_, ⟨key, row, found, rfl⟩, family.key_resource key row, faithful key row found⟩
  · rintro ⟨_, ⟨other, old, found, rfl⟩, same, spread⟩
    rw [family.key_resource] at same
    rw [faithful other old found] at spread
    cases spread
    exact same ▸ found

section Held

variable {tables : Tables}

theorem poolsHeld : poolFamily.Holds {} (heldModel tables).pools tables.pools :=
  @Family.holds_read _ _ poolFamily tables {} characterOrder fun _ _ _ => rfl

theorem policiesHeld : tlsPolicyFamily.Holds {} (heldModel tables).tlsPolicies tables.tlsPolicies :=
  @Family.holds_read _ _ tlsPolicyFamily tables {} characterOrder fun _ _ _ => rfl

variable {key : String}

theorem certificateRow_certificateOf {row : CertificateRow}
    (allowed : ∀ check ∈ certificateChecks key row, check.2 = true) :
    certificateRow (certificateOf key row) = row := by
  obtain ⟨material, chain, digest, account, domains⟩ := row
  cases material <;> cases chain <;> cases digest <;> cases account <;> cases domains <;>
    simp_all [certificateChecks, certificateRow, certificateOf]

theorem certificatesHeld (kept : RowsKept tables) :
    certificateFamily.Holds {} (heldModel tables).certificates tables.certificates :=
  @Family.holds_read _ _ certificateFamily tables {} characterOrder fun key row found =>
    congrArg Except.ok (certificateRow_certificateOf (kept.certificates key row found))

theorem hasPool_iff {protocolClass : ProtocolClass} :
    HasPool (heldModel tables) key protocolClass ↔
      resources.Resolves (shown tables) (poolReference protocolClass key) := by
  unfold HasPool heldModel readModel
  simp only [mem_resourcesOf]
  constructor
  · rintro ⟨_, ⟨_, row, found, rfl⟩, rfl, rfl⟩
    refine ⟨_, Option.map_eq_some_iff.mpr ⟨row, found, rfl⟩, ?_⟩
    rintro suits ⟨rfl⟩
    exact decide_eq_true rfl
  · rintro ⟨item, found, suited⟩
    obtain ⟨row, stored, rfl⟩ := Option.map_eq_some_iff.mp found
    have same := of_decide_eq_true (suited _ rfl)
    exact ⟨_, ⟨key, row, stored, rfl⟩, rfl, Trait.pool.inj same⟩

theorem Family.Shows.resolves {β R : Type} {family : Family β R} {kind : ResourceKind}
    {wrap : β → Resource} (shows : family.Shows kind wrap) {ref : ResourceReference}
    (same : ref.target.kind = kind) (free : ref.pinned = none) :
    resources.Resolves (shown tables) ref ↔
      ((family.table tables).get? ref.target.key).isSome := by
  rw [← shows.present same, Option.isSome_iff_exists]
  constructor
  · rintro ⟨item, found, _⟩
    exact ⟨item, found⟩
  · rintro ⟨item, found⟩
    exact ⟨item, found, fun _ pinned => by cases free.symm.trans pinned⟩

theorem resolves_pool :
    resources.Resolves (shown tables) (backendReference key) ↔
      (tables.pools.get? key).isSome :=
  pool_shows.resolves rfl rfl

theorem resolves_certificate :
    resources.Resolves (shown tables) (plainReference (certificateName key)) ↔
      (tables.certificates.get? key).isSome :=
  certificate_shows.resolves rfl rfl

theorem resolves_policy :
    resources.Resolves (shown tables) (plainReference (policyName key)) ↔
      (tables.tlsPolicies.get? key).isSome :=
  tlsPolicy_shows.resolves rfl rfl

theorem protocolOf_listenerBodyOf (row : ListenerRow) :
    protocolOf (listenerBodyOf row) = row.protocol := by
  unfold listenerBodyOf
  cases row.protocol <;> rfl

theorem resolves_listener {key subject : String} {suits : ListenerProtocol → Bool}
    {cascades : Bool} :
    resources.Resolves (shown tables)
        { target := listenerName key, pinned := some (suitsListener suits), cascades := cascades } ↔
      ∃ ref, listenerRef tables key subject = .ok ref ∧ suits ref.protocol = true := by
  unfold listenerRef
  constructor
  · rintro ⟨item, found, suited⟩
    obtain ⟨row, stored, rfl⟩ := Option.map_eq_some_iff.mp found
    replace stored : tables.listeners.get? key = some row := stored
    have fitting : suits (protocolOf (listenerBodyOf row)) = true := suited _ rfl
    rw [protocolOf_listenerBodyOf] at fitting
    rw [stored]
    exact ⟨_, rfl, fitting⟩
  · rintro ⟨ref, resolved, fitting⟩
    cases stored : tables.listeners.get? key with
    | none => simp [stored] at resolved
    | some row =>
        simp only [stored, Except.ok.injEq] at resolved
        subst resolved
        refine ⟨_, Option.map_eq_some_iff.mpr ⟨row, stored, rfl⟩, ?_⟩
        rintro _ ⟨rfl⟩
        exact (congrArg suits (protocolOf_listenerBodyOf row)).trans fitting

theorem listenerRef_key {key subject : String} {ref : ListenerRef}
    (resolved : listenerRef tables key subject = .ok ref) : ref.key = key := by
  unfold listenerRef at resolved
  cases stored : tables.listeners.get? key with
  | none => simp [stored] at resolved
  | some row =>
      simp only [stored, Except.ok.injEq] at resolved
      exact resolved ▸ rfl

theorem outcomeFits_iff {protocolClass : ProtocolClass} {outcome : Option SniOutcome} :
    OutcomeFits (heldModel tables) protocolClass outcome ↔
      ∀ ref ∈ outcomeReferences protocolClass outcome,
        resources.Resolves (shown tables) ref := by
  match outcome with
  | none | some .reject => simp [OutcomeFits, outcomeReferences, outcomePool]
  | some (.pool key) => simp [OutcomeFits, outcomeReferences, outcomePool, hasPool_iff]

theorem bodyRefersFit_iff (kept : RowsKept tables) {body : ListenerBody} :
    BodyRefersFit (heldModel tables) body ↔
      ∀ ref ∈ bodyReferences body, resources.Resolves (shown tables) ref := by
  cases body with
  | http body => exact outcomeFits_iff
  | https body =>
      have policy := @Family.Holds.isSome _ _ tlsPolicyFamily {} _ _ body.tls.policy
        (@policiesHeld tables) fun policy => ⟨_, rfl⟩
      have certificate := @Family.Holds.isSome _ _ certificateFamily {} _ _
        body.tls.defaultCertificate (certificatesHeld kept) fun item => ⟨_, rfl⟩
      simp only [BodyRefersFit, bodyReferences, List.forall_mem_append, outcomeFits_iff,
        List.forall_mem_cons, List.not_mem_nil, false_implies, implies_true, and_true,
        resolves_policy, resolves_certificate, policy, certificate]
      exact Iff.rfl
  | tlsPassthrough body =>
      simp only [BodyRefersFit, bodyReferences, List.forall_mem_append, outcomeFits_iff]
  | tcp body | udp body => simp [BodyRefersFit, bodyReferences, hasPool_iff]

end Held

/-! ## Names and traits -/

variable {tables : Tables} {item : Resource}

theorem shown_name {name : ResourceName} (found : shown tables name = some item) :
    resourceName item = name := by
  obtain ⟨kind, key, fixed⟩ := name
  cases kind
  case engine =>
    obtain ⟨settings, _, rfl⟩ := Option.map_eq_some_iff.mp found
    exact resourceName_ext rfl (fixed rfl).symm
  all_goals
    obtain ⟨row, _, rfl⟩ := Option.map_eq_some_iff.mp found
    rfl

theorem trait_plain (pool : (resourceName item).kind ≠ .pool)
    (listener : (resourceName item).kind ≠ .listener) : resourceTrait item = .plain := by
  cases item with
  | pool _ => exact absurd rfl pool
  | listener _ => exact absurd rfl listener
  | _ => rfl

theorem movable_plain (pool : (resourceName item).kind ≠ .pool)
    (listener : (resourceName item).kind ≠ .listener) : resources.Movable (shown tables) item := by
  intro old found
  have same : resourceName old = resourceName item := shown_name found
  refine .inl ?_
  change resourceTrait old = resourceTrait item
  rw [trait_plain pool listener, trait_plain (same ▸ pool) (same ▸ listener)]

theorem keepsReferences_ok {constraint : String} {changed referenced : Bool} :
    keepsReferences constraint changed referenced = .ok () ↔
      (changed = true → referenced = false) := by
  unfold keepsReferences
  cases changed <;> cases referenced <;> simp

theorem movable_pool (kept : RowsKept tables) {pool : Pool} :
    resources.Movable (shown tables) (.pool pool) ↔
      keepsReferences "listener_default_pool_fk"
        ((tables.pools.get? pool.key).any fun old =>
          decide (old.protocolClass ≠ (poolRow pool).protocolClass))
        (poolReferenced tables pool.key) = .ok () := by
  have pinned : resources.Pinned (shown tables) (poolName pool.key) ↔
      poolReferenced tables pool.key = true := pinned_pool kept
  have here : shown tables (poolName pool.key) =
      (tables.pools.get? pool.key).map fun row => .pool (poolOf pool.key row) := rfl
  rw [keepsReferences_ok]
  change (∀ old, shown tables (poolName pool.key) = some old →
    resourceTrait old = .pool pool.protocolClass ∨
      ¬ resources.Pinned (shown tables) (poolName pool.key)) ↔ _
  rw [here, pinned]
  cases tables.pools.get? pool.key with
  | none => simp
  | some row =>
      by_cases same : row.protocolClass = pool.protocolClass
      · simp [resourceTrait, poolOf, poolRow, same]
      · simp [resourceTrait, poolOf, poolRow, same]

theorem movable_listener {listener : Listener} {protocol : ListenerProtocol}
    (same : protocol = protocolOf listener.body) :
    resources.Movable (shown tables) (.listener listener) ↔
      keepsReferences "http_route_listener_fk"
        ((tables.listeners.get? listener.key).any fun old => decide (old.protocol ≠ protocol))
        (listenerRouted tables listener.key || listenerBound tables listener.key) = .ok () := by
  have pinned := @pinned_listener tables listener.key
  have here : shown tables (listenerName listener.key) =
      (tables.listeners.get? listener.key).map fun row =>
        .listener (listenerOf listener.key row) := rfl
  rw [keepsReferences_ok]
  change (∀ old, shown tables (listenerName listener.key) = some old →
    resourceTrait old = .listener (protocolOf listener.body) ∨
      ¬ resources.Pinned (shown tables) (listenerName listener.key)) ↔ _
  rw [here, pinned]
  cases tables.listeners.get? listener.key with
  | none => simp
  | some row =>
      have trait : resourceTrait (.listener (listenerOf listener.key row)) =
          .listener row.protocol :=
        congrArg Trait.listener (protocolOf_listenerBodyOf row)
      simp [trait, same]
      tauto

/-! ## One kind after the other -/

structure PutDone (tables after : Tables) (item : Resource) : Prop where
  kept : RowsKept after
  stands : resources.Stands (shown tables) item
  movable : resources.Movable (shown tables) item
  placed : ∃ stored, resources.Alike item stored ∧
    shown after = resources.placed (shown tables) stored ∧ (stored = item → ColumnsFit item)

theorem same_placed {tables after : Tables}
    (placed : shown after = resources.placed (shown tables) item) (fits : ColumnsFit item) :
    ∃ stored, resources.Alike item stored ∧
      shown after = resources.placed (shown tables) stored ∧ (stored = item → ColumnsFit item) :=
  ⟨item, ⟨rfl, rfl, rfl⟩, placed, fun _ => fits⟩

section Puts

variable {tables after : Tables} (kept : RowsKept tables)

theorem engine_placed {settings : EngineSettings} :
    shown { tables with engine := some settings } =
      resources.placed (shown tables) (.engine settings) := by
  funext name
  by_cases here : name = resourceName (.engine settings)
  · subst here
    exact Registry.placed_self.symm
  · refine Eq.trans ?_ (Registry.placed_other here).symm
    obtain ⟨kind, key, fixed⟩ := name
    cases kind with
    | engine =>
        have same : ResourceName.mk .engine key fixed = resourceName (.engine settings) :=
          resourceName_ext rfl (fixed rfl)
        exact absurd same here
    | _ => rfl

include kept

theorem putEngine_done {settings : EngineSettings}
    (done : putEngine tables settings = .ok after) :
    PutDone tables after (.engine settings) := by
  simp only [putEngine, Outcome.bind_ok, pure, Except.pure, Except.ok.injEq] at done
  obtain ⟨_, allowed, rfl⟩ := done
  exact
    { kept := { kept with }
      stands := fun _ member => (List.not_mem_nil member).elim
      movable := movable_plain (by rintro ⟨⟩) (by rintro ⟨⟩)
      placed := same_placed engine_placed (engine_allowed.mp (enforce_eq_ok.mp allowed)) }

theorem putPool_done {pool : Pool} (done : putPool tables pool = .ok after) :
    PutDone tables after (.pool pool) := by
  simp only [putPool, Outcome.bind_ok, pure, Except.pure, Except.ok.injEq] at done
  obtain ⟨_, allowed, _, keeps, rfl⟩ := done
  have fits : PoolFits pool := (@pool_keeps tables pool).mp
    ⟨poolRow pool, ⟨rfl, enforce_eq_ok.mp allowed⟩, rfl⟩
  exact
    { kept := { kept with }
      stands := fun _ member => (List.not_mem_nil member).elim
      movable := (movable_pool kept).mpr keeps
      placed := same_placed pool_shows.set fits }

theorem putCertificate_done {certificate : Certificate}
    (done : putCertificate tables certificate = .ok after) :
    PutDone tables after (.certificate certificate) := by
  simp only [putCertificate, Outcome.bind_ok, pure, Except.pure, Except.ok.injEq] at done
  obtain ⟨_, allowed, rfl⟩ := done
  have checked := enforce_eq_ok.mp allowed
  refine
    { kept := { kept with certificates := kept.certificates.set checked }
      stands := fun _ member => (List.not_mem_nil member).elim
      movable := movable_plain (by rintro ⟨⟩) (by rintro ⟨⟩)
      placed := ⟨.certificate (certificateOf certificate.key (certificateRow certificate)),
        ⟨rfl, rfl, rfl⟩, certificate_shows.set, fun same => ?_⟩ }
  exact (@certificate_keeps tables certificate).mp
    ⟨certificateRow certificate, ⟨rfl, checked⟩, Resource.certificate.inj same⟩

theorem putTlsPolicy_done {policy : TlsPolicy}
    (done : putTlsPolicy tables policy = .ok after) :
    PutDone tables after (.tlsPolicy policy) := by
  simp only [putTlsPolicy, Outcome.bind_ok, pure, Except.pure, Except.ok.injEq] at done
  obtain ⟨_, allowed, rfl⟩ := done
  have fits : TlsPolicyFits policy := (@tlsPolicy_keeps tables policy).mp
    ⟨tlsPolicyRow policy, ⟨rfl, enforce_eq_ok.mp allowed⟩, rfl⟩
  exact
    { kept := { kept with }
      stands := fun _ member => (List.not_mem_nil member).elim
      movable := movable_plain (by rintro ⟨⟩) (by rintro ⟨⟩)
      placed := same_placed tlsPolicy_shows.set fits }

theorem putAddressSet_done {set : AddressSet}
    (done : putAddressSet tables set = .ok after) :
    PutDone tables after (.addressSet set) := by
  simp only [putAddressSet, Outcome.bind_ok, pure, Except.pure, Except.ok.injEq] at done
  obtain ⟨_, allowed, rfl⟩ := done
  have fits : AddressSetFits set := (@addressSet_keeps tables set).mp
    ⟨addressSetRow set, ⟨rfl, enforce_eq_ok.mp allowed⟩, rfl⟩
  exact
    { kept := { kept with }
      stands := fun _ member => (List.not_mem_nil member).elim
      movable := movable_plain (by rintro ⟨⟩) (by rintro ⟨⟩)
      placed := same_placed addressSet_shows.set fits }

theorem putBackend_done {backend : Backend} (done : putBackend tables backend = .ok after) :
    PutDone tables after (.backend backend) := by
  simp only [putBackend, Outcome.bind_ok, pure, Except.pure, Except.ok.injEq] at done
  obtain ⟨ref, resolved, _, allowed, rfl⟩ := done
  have found : (tables.pools.get? backend.pool).isSome := by
    unfold poolRef at resolved
    cases stored : tables.pools.get? backend.pool with
    | none => simp [stored] at resolved
    | some row => rfl
  have checked := enforce_eq_ok.mp allowed
  refine
    { kept := { kept with backends := kept.backends.set rfl }
      stands := fun ref member => List.mem_singleton.mp member ▸ resolves_pool.mpr found
      movable := movable_plain (by rintro ⟨⟩) (by rintro ⟨⟩)
      placed := ⟨.backend (backendOf backend.key (backendRow backend)),
        ⟨rfl, rfl, rfl⟩, backend_shows.set, fun same => ?_⟩ }
  have fits := (@backend_keeps tables (heldModel tables) backend poolsHeld).mp
    ⟨backendRow backend, ⟨by simp [backendFamily, resolved, Except.map], checked⟩,
      Resource.backend.inj same⟩
  exact fits.2

theorem putListener_done {listener : Listener} (done : putListener tables listener = .ok after) :
    PutDone tables after (.listener listener) := by
  simp only [putListener, Outcome.bind_ok, pure, Except.pure, Except.ok.injEq] at done
  obtain ⟨row, spread, _, allowed, _, keeps, rfl⟩ := done
  obtain ⟨⟨refers, checked⟩, rfl⟩ :=
    (listenerRow_stands poolsHeld policiesHeld (certificatesHeld kept)).mp
      ⟨spread, enforce_eq_ok.mp allowed⟩
  have trait : resourceTrait (.listener listener) =
      resourceTrait (.listener (listenerOf listener.key (standingRow listener))) :=
    congrArg Trait.listener
      ((standingRow_protocol listener).symm.trans (protocolOf_listenerBodyOf _).symm)
  refine
    { kept := { kept with listeners := kept.listeners.set ⟨listener, rfl⟩ }
      stands := (bodyRefersFit_iff kept).mp refers
      movable := (movable_listener (standingRow_protocol listener)).mpr keeps
      placed := ⟨.listener (listenerOf listener.key (standingRow listener)),
        ⟨rfl, trait, (references_standingRow listener).symm⟩, listener_shows.set,
        fun same => ?_⟩ }
  exact standingRow_fits.mp ⟨checked, Resource.listener.inj same⟩

theorem putHttpRoute_done {route : HttpRoute} (done : putHttpRoute tables route = .ok after) :
    PutDone tables after (.httpRoute route) := by
  simp only [putHttpRoute, Outcome.bind_ok, pure, Except.pure, Except.ok.injEq] at done
  obtain ⟨row, spread, _, allowed, rfl⟩ := done
  obtain ⟨listener, resolved, refers, rfl, checked⟩ :=
    (httpRouteRow_stands poolsHeld).mp ⟨spread, enforce_eq_ok.mp allowed⟩
  have stored : (routedRow route listener).listener = listener := by
    unfold routedRow
    cases route.action <;> rfl
  have suited : listener.protocol.httpFamily = true := by
    have check := checked
      ("http_route_listener_is_http",
        (routedRow route listener).listener.protocol.httpFamily)
      (by simp [httpRouteChecks])
    rwa [stored] at check
  have actions : ∀ ref ∈ actionReferences route.action,
      resources.Resolves (shown tables) ref := by
    cases action : route.action with
    | proxy pool _ _ _ =>
        rw [action] at refers
        rintro ref member
        exact List.mem_singleton.mp member ▸ hasPool_iff.mp refers
    | redirect _ _ | reject _ => exact fun _ member => (List.not_mem_nil member).elim
  have refs : resourceRefs (.httpRoute route) =
      resourceRefs (.httpRoute (httpRouteOf route.key (routedRow route listener))) := by
    have named : (routedRow route listener).listener.key = route.listener :=
      (congrArg ListenerRef.key stored).trans (listenerRef_key resolved)
    simp only [resourceRefs, httpRouteOf, references_routedRow, named]
  refine
    { kept := { kept with httpRoutes := kept.httpRoutes.set ⟨route, listener, rfl⟩ }
      stands := List.forall_mem_cons.mpr
        ⟨resolves_listener.mpr ⟨listener, resolved, suited⟩, actions⟩
      movable := movable_plain (by rintro ⟨⟩) (by rintro ⟨⟩)
      placed := ⟨.httpRoute (httpRouteOf route.key (routedRow route listener)),
        ⟨rfl, rfl, refs⟩, httpRoute_shows.set, fun same => ?_⟩ }
  exact (routedRow_fits.mp ⟨checked, Resource.httpRoute.inj same⟩).2.2

theorem putPassthroughRoute_done {route : PassthroughRoute}
    (done : putPassthroughRoute tables route = .ok after) :
    PutDone tables after (.passthroughRoute route) := by
  simp only [putPassthroughRoute, Outcome.bind_ok, pure, Except.pure, Except.ok.injEq] at done
  obtain ⟨row, spread, _, allowed, rfl⟩ := done
  obtain ⟨listener, resolved, refers, rfl, checked⟩ :=
    (passthroughRouteRow_stands poolsHeld).mp ⟨spread, enforce_eq_ok.mp allowed⟩
  have stored : (passedRow route listener).listener = listener := by
    unfold passedRow
    cases route.action <;> rfl
  have suited : decide (listener.protocol = .tlsPassthrough) = true := by
    have check := checked
      ("pt_route_listener_is_pt",
        decide ((passedRow route listener).listener.protocol = .tlsPassthrough))
      (by simp [passthroughRouteChecks])
    rwa [stored] at check
  have actions : ∀ ref ∈ passthroughReferences route.action,
      resources.Resolves (shown tables) ref := by
    cases action : route.action with
    | proxy pool =>
        rintro ref member
        exact List.mem_singleton.mp member ▸ hasPool_iff.mp (refers pool action)
    | reject => exact fun _ member => (List.not_mem_nil member).elim
  have refs : resourceRefs (.passthroughRoute route) =
      resourceRefs
        (.passthroughRoute (passthroughRouteOf route.key (passedRow route listener))) := by
    have named : (passthroughRouteOf route.key (passedRow route listener)).listener =
        route.listener := (congrArg ListenerRef.key stored).trans (listenerRef_key resolved)
    simp only [resourceRefs, passed_action, named]
  refine
    { kept := { kept with passthroughRoutes := kept.passthroughRoutes.set ⟨route, listener, rfl⟩ }
      stands := List.forall_mem_cons.mpr
        ⟨resolves_listener.mpr ⟨listener, resolved, suited⟩, actions⟩
      movable := movable_plain (by rintro ⟨⟩) (by rintro ⟨⟩)
      placed := ⟨.passthroughRoute (passthroughRouteOf route.key (passedRow route listener)),
        ⟨rfl, rfl, refs⟩, passthroughRoute_shows.set, fun same => ?_⟩ }
  exact (passedRow_fits.mp ⟨checked, Resource.passthroughRoute.inj same⟩).2.2

theorem putSniBinding_done {binding : SniCertificateBinding}
    (done : putSniBinding tables binding = .ok after) :
    PutDone tables after (.sniBinding binding) := by
  simp only [putSniBinding, Outcome.bind_ok, pure, Except.pure, Except.ok.injEq] at done
  obtain ⟨row, spread, _, allowed, rfl⟩ := done
  simp only [sniBindingRow, Outcome.bind_ok, idOf_ok, pure, Except.pure,
    Except.ok.injEq] at spread
  obtain ⟨listener, resolved, _, ⟨certificate, rfl⟩, spread⟩ := spread
  obtain rfl : boundRow binding listener = row := spread
  have checked := enforce_eq_ok.mp allowed
  have suited : decide (listener.protocol = .https) = true :=
    checked _ (List.mem_cons_of_mem _ (List.mem_cons_of_mem _ List.mem_cons_self))
  have refs : resourceRefs (.sniBinding binding) =
      resourceRefs (.sniBinding (sniBindingOf binding.key (boundRow binding listener))) := by
    have named : listener.key = binding.listener := listenerRef_key resolved
    simp only [resourceRefs, sniBindingOf, boundRow, named]
  refine
    { kept := { kept with }
      stands := List.forall_mem_cons.mpr
        ⟨resolves_listener.mpr ⟨listener, resolved, suited⟩, fun ref member =>
          List.mem_singleton.mp member ▸ resolves_certificate.mpr certificate⟩
      movable := movable_plain (by rintro ⟨⟩) (by rintro ⟨⟩)
      placed := ⟨.sniBinding (sniBindingOf binding.key (boundRow binding listener)),
        ⟨rfl, rfl, refs⟩, sniBinding_shows.set, fun same => ?_⟩ }
  exact (boundRow_fits.mp ⟨checked, Resource.sniBinding.inj same⟩).2.2

theorem putResource_done {resource : Resource} (done : putResource tables resource = .ok after) :
    PutDone tables after resource := by
  cases resource with
  | engine settings => exact putEngine_done kept done
  | pool pool => exact putPool_done kept done
  | backend backend => exact putBackend_done kept done
  | certificate certificate => exact putCertificate_done kept done
  | tlsPolicy policy => exact putTlsPolicy_done kept done
  | addressSet set => exact putAddressSet_done kept done
  | listener listener => exact putListener_done kept done
  | httpRoute route => exact putHttpRoute_done kept done
  | passthroughRoute route => exact putPassthroughRoute_done kept done
  | sniBinding binding => exact putSniBinding_done kept done

/-- A resource that fits, and whose place in the registry is free for it, is put
and shown as it is. -/
theorem putResource_fits {resource : Resource} (fits : ColumnsFit resource)
    (stands : resources.Stands (shown tables) resource)
    (movable : resources.Movable (shown tables) resource) :
    ∃ after, putResource tables resource = .ok after ∧
      shown after (resourceName resource) = some resource := by
  cases resource with
  | engine settings =>
      refine ⟨{ tables with engine := some settings }, ?_, rfl⟩
      have allowed := enforce_eq_ok.mpr (engine_allowed.mpr fits)
      simp only [putResource, putEngine, Outcome.bind_ok]
      exact ⟨(), allowed, rfl⟩
  | pool pool =>
      obtain ⟨checked, _⟩ :=
        (@Family.keeps_of_row _ _ poolFamily tables pool (poolRow pool) rfl).mp
          (pool_keeps.mpr fits)
      have keeps := (movable_pool kept).mp movable
      refine ⟨{ tables with pools := tables.pools.set pool.key (poolRow pool) }, ?_, ?_⟩
      · simp only [putResource, putPool, Outcome.bind_ok]
        exact ⟨(), enforce_eq_ok.mpr checked, (), keeps, rfl⟩
      · exact Option.map_eq_some_iff.mpr ⟨_, OrderedMap.get?_set_same .., rfl⟩
  | certificate certificate =>
      obtain ⟨checked, same⟩ :=
        (@Family.keeps_of_row _ _ certificateFamily tables certificate (certificateRow certificate) rfl).mp
          (certificate_keeps.mpr fits)
      let rows := tables.certificates.set certificate.key (certificateRow certificate)
      refine ⟨{ tables with certificates := rows }, ?_, ?_⟩
      · simp only [putResource, putCertificate, Outcome.bind_ok]
        exact ⟨(), enforce_eq_ok.mpr checked, rfl⟩
      · exact Option.map_eq_some_iff.mpr
          ⟨_, OrderedMap.get?_set_same .., congrArg Resource.certificate same⟩
  | tlsPolicy policy =>
      obtain ⟨checked, _⟩ :=
        (@Family.keeps_of_row _ _ tlsPolicyFamily tables policy (tlsPolicyRow policy) rfl).mp
          (tlsPolicy_keeps.mpr fits)
      let rows := tables.tlsPolicies.set policy.key (tlsPolicyRow policy)
      refine ⟨{ tables with tlsPolicies := rows }, ?_, ?_⟩
      · simp only [putResource, putTlsPolicy, Outcome.bind_ok]
        exact ⟨(), enforce_eq_ok.mpr checked, rfl⟩
      · exact Option.map_eq_some_iff.mpr ⟨_, OrderedMap.get?_set_same .., rfl⟩
  | addressSet set =>
      obtain ⟨checked, _⟩ :=
        (@Family.keeps_of_row _ _ addressSetFamily tables set (addressSetRow set) rfl).mp
          (addressSet_keeps.mpr fits)
      let rows := tables.addressSets.set set.key (addressSetRow set)
      refine ⟨{ tables with addressSets := rows }, ?_, ?_⟩
      · simp only [putResource, putAddressSet, Outcome.bind_ok]
        exact ⟨(), enforce_eq_ok.mpr checked, rfl⟩
      · exact Option.map_eq_some_iff.mpr ⟨_, OrderedMap.get?_set_same .., rfl⟩
  | backend backend =>
      have found := resolves_pool.mp (stands (backendReference backend.pool) List.mem_cons_self)
      obtain ⟨row, stored⟩ := Option.isSome_iff_exists.mp found
      have refers : ∃ pool ∈ (heldModel tables).pools, pool.key = backend.pool :=
        ⟨_, mem_resourcesOf.mpr ⟨backend.pool, row, stored, rfl⟩, rfl⟩
      obtain ⟨_, ⟨spread, checked⟩, same⟩ :=
        (@backend_keeps tables (heldModel tables) backend poolsHeld).mpr ⟨refers, fits⟩
      obtain ⟨ref, resolved, rfl⟩ := Outcome.map_ok.mp spread
      let rows := tables.backends.set backend.key (backendRow backend)
      refine ⟨{ tables with backends := rows }, ?_, ?_⟩
      · simp only [putResource, putBackend, Outcome.bind_ok]
        exact ⟨ref, resolved, (), enforce_eq_ok.mpr checked, rfl⟩
      · exact Option.map_eq_some_iff.mpr
          ⟨_, OrderedMap.get?_set_same .., congrArg Resource.backend same⟩
  | listener listener =>
      obtain ⟨checked, same⟩ := standingRow_fits.mpr fits
      obtain ⟨spread, _⟩ :=
        (listenerRow_stands poolsHeld policiesHeld (certificatesHeld kept)).mpr
          ⟨⟨(bodyRefersFit_iff kept).mpr stands, checked⟩, rfl⟩
      have keeps := (movable_listener (standingRow_protocol listener)).mp movable
      let rows := tables.listeners.set listener.key (standingRow listener)
      refine ⟨{ tables with listeners := rows }, ?_, ?_⟩
      · simp only [putResource, putListener, Outcome.bind_ok]
        exact ⟨_, spread, (), enforce_eq_ok.mpr checked, (), keeps, rfl⟩
      · exact Option.map_eq_some_iff.mpr
          ⟨_, OrderedMap.get?_set_same .., congrArg Resource.listener same⟩
  | httpRoute route =>
      obtain ⟨listener, resolved, suited⟩ :=
        (@resolves_listener tables route.listener s!"route '{route.key}'" _ _).mp
          (stands _ List.mem_cons_self)
      obtain ⟨checked, same⟩ :=
        (@routedRow_fits route listener).mpr ⟨suited, listenerRef_key resolved, fits⟩
      have refers : ActionRefersFit (heldModel tables) route.action := by
        cases action : route.action with
        | proxy pool _ _ _ =>
            have member : poolReference .http pool ∈ resourceRefs (.httpRoute route) := by
              simp [resourceRefs, action, actionReferences]
            exact hasPool_iff.mpr (stands _ member)
        | redirect _ _ | reject _ => trivial
      obtain ⟨spread, _⟩ := (httpRouteRow_stands poolsHeld).mpr
        ⟨listener, resolved, refers, rfl, checked⟩
      let rows := tables.httpRoutes.set route.key (routedRow route listener)
      refine ⟨{ tables with httpRoutes := rows }, ?_, ?_⟩
      · simp only [putResource, putHttpRoute, Outcome.bind_ok]
        exact ⟨_, spread, (), enforce_eq_ok.mpr checked, rfl⟩
      · exact Option.map_eq_some_iff.mpr
          ⟨_, OrderedMap.get?_set_same .., congrArg Resource.httpRoute same⟩
  | passthroughRoute route =>
      obtain ⟨listener, resolved, suited⟩ :=
        (@resolves_listener tables route.listener s!"route '{route.key}'" _ _).mp
          (stands _ List.mem_cons_self)
      obtain ⟨checked, same⟩ := (@passedRow_fits listener route).mpr
        ⟨of_decide_eq_true suited, listenerRef_key resolved, fits⟩
      have refers : ∀ pool, route.action = .proxy pool → HasPool (heldModel tables) pool .tcp := by
        intro pool action
        have member : poolReference .tcp pool ∈ resourceRefs (.passthroughRoute route) := by
          simp [resourceRefs, action, passthroughReferences]
        exact hasPool_iff.mpr (stands _ member)
      obtain ⟨spread, _⟩ := (passthroughRouteRow_stands poolsHeld).mpr
        ⟨listener, resolved, refers, rfl, checked⟩
      let rows := tables.passthroughRoutes.set route.key (passedRow route listener)
      refine ⟨{ tables with passthroughRoutes := rows }, ?_, ?_⟩
      · simp only [putResource, putPassthroughRoute, Outcome.bind_ok]
        exact ⟨_, spread, (), enforce_eq_ok.mpr checked, rfl⟩
      · exact Option.map_eq_some_iff.mpr
          ⟨_, OrderedMap.get?_set_same .., congrArg Resource.passthroughRoute same⟩
  | sniBinding binding =>
      obtain ⟨listener, resolved, suited⟩ :=
        (@resolves_listener tables binding.listener s!"sniBinding '{binding.key}'" _ _).mp
          (stands _ List.mem_cons_self)
      have certificate := resolves_certificate.mp
        (stands _ (List.mem_cons_of_mem _ List.mem_cons_self))
      obtain ⟨checked, same⟩ := (@boundRow_fits listener binding).mpr
        ⟨of_decide_eq_true suited, listenerRef_key resolved, fits⟩
      have spread : sniBindingRow tables binding = .ok (boundRow binding listener) := by
        simp only [sniBindingRow, Outcome.bind_ok, idOf_ok]
        exact ⟨listener, resolved, _, ⟨certificate, rfl⟩, rfl⟩
      let rows := tables.sniBindings.set binding.key (boundRow binding listener)
      refine ⟨{ tables with sniBindings := rows }, ?_, ?_⟩
      · simp only [putResource, putSniBinding, Outcome.bind_ok]
        exact ⟨_, spread, (), enforce_eq_ok.mpr checked, rfl⟩
      · exact Option.map_eq_some_iff.mpr
          ⟨_, OrderedMap.get?_set_same .., congrArg Resource.sniBinding same⟩

end Puts

end Store

end Barycenter
