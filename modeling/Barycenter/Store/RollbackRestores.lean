import Barycenter.Store.RouteFits

/-!
# When a rollback restores a model

The operations of a model run in ten stages, one for each kind of resource.
Every stage fills one table that was empty, so the reading of each table at the
end is the reading of its own stage, and each stage is decided by the resources
of its kind.
-/

namespace Barycenter

namespace Store

open Config

variable {collation : Collation} {model : Model}

/-- The model that is read after the operations of a model have run in empty
tables. -/
def restore (collation : Collation) (model : Model) : Except StoreError Model :=
  (applyOps {} (opsOf model)).map (readModel collation)

/-! ## Stages -/

theorem applyOps_opsOf {after : Tables} :
    applyOps {} (opsOf model) = .ok after ↔
      ∃ engine pools backends certificates policies sets listeners httpRoutes
          passthroughRoutes,
        model.engine.toList.foldlM putEngine {} = .ok engine ∧
        model.pools.foldlM putPool engine = .ok pools ∧
        model.backends.foldlM putBackend pools = .ok backends ∧
        model.certificates.foldlM putCertificate backends = .ok certificates ∧
        model.tlsPolicies.foldlM putTlsPolicy certificates = .ok policies ∧
        (model.addressSets.getD []).foldlM putAddressSet policies = .ok sets ∧
        model.listeners.foldlM putListener sets = .ok listeners ∧
        model.httpRoutes.foldlM putHttpRoute listeners = .ok httpRoutes ∧
        model.passthroughRoutes.foldlM putPassthroughRoute httpRoutes =
          .ok passthroughRoutes ∧
        model.sniBindings.foldlM putSniBinding passthroughRoutes = .ok after := by
  simp only [applyOps, opsOf, List.foldlM_append, List.foldlM_map, Outcome.bind_ok, applyOp,
    putResource]
  constructor
  · rintro ⟨passthroughRoutes, ⟨httpRoutes, ⟨listeners, ⟨sets, ⟨policies, ⟨certificates,
      ⟨backends, ⟨pools, ⟨engine, putEngines, putPools⟩, putBackends⟩, putCertificates⟩,
      putPolicies⟩, putSets⟩, putListeners⟩, putRoutes⟩, putPassthrough⟩, putBindings⟩
    exact ⟨engine, pools, backends, certificates, policies, sets, listeners, httpRoutes,
      passthroughRoutes, putEngines, putPools, putBackends, putCertificates, putPolicies,
      putSets, putListeners, putRoutes, putPassthrough, putBindings⟩
  · rintro ⟨engine, pools, backends, certificates, policies, sets, listeners, httpRoutes,
      passthroughRoutes, putEngines, putPools, putBackends, putCertificates, putPolicies,
      putSets, putListeners, putRoutes, putPassthrough, putBindings⟩
    exact ⟨passthroughRoutes, ⟨httpRoutes, ⟨listeners, ⟨sets, ⟨policies, ⟨certificates,
      ⟨backends, ⟨pools, ⟨engine, putEngines, putPools⟩, putBackends⟩, putCertificates⟩,
      putPolicies⟩, putSets⟩, putListeners⟩, putRoutes⟩, putPassthrough⟩, putBindings⟩

theorem engineStage_ok {after : Tables} :
    model.engine.toList.foldlM putEngine {} = .ok after ↔
      (∀ settings ∈ model.engine, EngineFits settings) ∧
        ({ engine := model.engine } : Tables) = after := by
  cases model.engine with
  | none => simp [pure, Except.pure]
  | some settings =>
      simp only [Option.toList_some, List.foldlM_cons, List.foldlM_nil, bind_pure, putEngine,
        Outcome.bind_ok, pure, Except.pure, Except.ok.injEq, Option.mem_def,
        Option.some.injEq, forall_eq', ← engine_allowed, ← enforce_eq_ok]
      constructor
      · rintro ⟨_, ⟨_, allowed, rfl⟩, same⟩
        exact ⟨allowed, same⟩
      · rintro ⟨allowed, same⟩
        exact ⟨_, ⟨(), allowed, rfl⟩, same⟩

theorem backendStage_enabled
    {items : List Backend} {tables after : Tables}
    (enabled : ∀ row ∈ tables.backends.values, row.enabled = true)
    (succeeded : items.foldlM putBackend tables = .ok after) :
    ∀ row ∈ after.backends.values, row.enabled = true := by
  induction items generalizing tables with
  | nil =>
      obtain rfl : tables = after := Except.ok.inj succeeded
      exact enabled
  | cons item rest induction =>
      rw [List.foldlM_cons, Outcome.bind_ok] at succeeded
      obtain ⟨middle, putOne, putRest⟩ := succeeded
      apply induction _ putRest
      simp only [putBackend, Outcome.bind_ok, pure, Except.pure, Except.ok.injEq] at putOne
      obtain ⟨_, _, _, _, rfl⟩ := putOne
      intro row member
      obtain ⟨key, found⟩ := OrderedMap.mem_values_iff.mp member
      rw [OrderedMap.get?_set] at found
      split at found
      · exact Option.some.inj found ▸ rfl
      · exact enabled row (OrderedMap.mem_values_iff.mpr ⟨key, found⟩)

theorem readAddressSets_eq {tables : Tables} {sets : Option (List AddressSet)} :
    readAddressSets collation tables = sets ↔
      resourcesOf collation addressSetOf tables.addressSets = sets.getD [] ∧
        sets ≠ some [] := by
  unfold readAddressSets
  cases resourcesOf collation addressSetOf tables.addressSets with
  | nil | cons set rest =>
      match sets with
      | none | some [] | some (_ :: _) => simp

/-! ## The whole model -/

/-- The lists of a model are sorted by their keys, every resource fits, and no
list of address sets is present and empty. -/
structure Restorable (collation : Collation) (model : Model) : Prop where
  engine : ∀ settings ∈ model.engine, EngineFits settings
  poolsAscend : Ascending collation (model.pools.map Pool.key)
  pools : ∀ pool ∈ model.pools, PoolFits pool
  backendsAscend : Ascending collation (model.backends.map Backend.key)
  backends : ∀ backend ∈ model.backends, BackendFits model backend
  certificatesAscend : Ascending collation (model.certificates.map Certificate.key)
  certificates : ∀ certificate ∈ model.certificates, CertificateFits certificate
  policiesAscend : Ascending collation (model.tlsPolicies.map TlsPolicy.key)
  policies : ∀ policy ∈ model.tlsPolicies, TlsPolicyFits policy
  setsFilled : model.addressSets ≠ some []
  setsAscend : Ascending collation ((model.addressSets.getD []).map AddressSet.key)
  sets : ∀ set ∈ model.addressSets.getD [], AddressSetFits set
  listenersAscend : Ascending collation (model.listeners.map Listener.key)
  listeners : ∀ listener ∈ model.listeners, ListenerFits model listener
  httpRoutesAscend : Ascending collation (model.httpRoutes.map HttpRoute.key)
  httpRoutes : ∀ route ∈ model.httpRoutes, HttpRouteFits model route
  passthroughAscend : Ascending collation (model.passthroughRoutes.map PassthroughRoute.key)
  passthroughRoutes : ∀ route ∈ model.passthroughRoutes, PassthroughRouteFits model route
  bindingsAscend : Ascending collation (model.sniBindings.map SniCertificateBinding.key)
  bindings : ∀ binding ∈ model.sniBindings, SniBindingFits model binding

theorem restore_eq_ok {restored : Model} :
    restore collation model = .ok restored ↔
      ∃ after, applyOps {} (opsOf model) = .ok after ∧ readModel collation after = restored :=
  Outcome.map_ok

theorem restorable_of_restore
    (restored : restore collation model = .ok model) : Restorable collation model := by
  obtain ⟨after, succeeded, read⟩ := restore_eq_ok.mp restored
  obtain ⟨engine, pools, backends, certificates, policies, sets, listeners, httpRoutes,
    passthroughRoutes, putEngines, putPools, putBackends, putCertificates, putPolicies,
    putSets, putListeners, putRoutes, putPassthrough, putBindings⟩ :=
    applyOps_opsOf.mp succeeded
  obtain ⟨engineFits, rfl⟩ := engineStage_ok.mp putEngines
  obtain ⟨poolRows, rfl⟩ := @Family.putAll_frame _ _ poolFamily _ _ _ putPools
  obtain ⟨backendRows, rfl⟩ := @Family.putAll_frame _ _ backendFamily _ _ _ putBackends
  obtain ⟨certificateRows, rfl⟩ :=
    @Family.putAll_frame _ _ certificateFamily _ _ _ putCertificates
  obtain ⟨policyRows, rfl⟩ := @Family.putAll_frame _ _ tlsPolicyFamily _ _ _ putPolicies
  obtain ⟨setRows, rfl⟩ := @Family.putAll_frame _ _ addressSetFamily _ _ _ putSets
  obtain ⟨listenerRows, rfl⟩ := @Family.putAll_frame _ _ listenerFamily _ _ _ putListeners
  obtain ⟨routeRows, rfl⟩ := @Family.putAll_frame _ _ httpRouteFamily _ _ _ putRoutes
  obtain ⟨passthroughRows, rfl⟩ :=
    @Family.putAll_frame _ _ passthroughRouteFamily _ _ _ putPassthrough
  obtain ⟨bindingRows, rfl⟩ := @Family.putAll_frame _ _ sniBindingFamily _ _ _ putBindings
  have readPools : resourcesOf collation poolOf poolRows = model.pools :=
    congrArg Model.pools read
  have enabled : ∀ row ∈ backendRows.values, row.enabled = true :=
    backendStage_enabled (fun _ member => absurd member List.not_mem_nil) putBackends
  have readBackends : resourcesOf collation backendOf backendRows = model.backends := by
    rw [← OrderedMap.filterValues_eq_self enabled]
    exact congrArg Model.backends read
  have readCertificates :
      resourcesOf collation certificateOf certificateRows = model.certificates :=
    congrArg Model.certificates read
  have readPolicies : resourcesOf collation tlsPolicyOf policyRows = model.tlsPolicies :=
    congrArg Model.tlsPolicies read
  obtain ⟨readSets, setsFilled⟩ :
      resourcesOf collation addressSetOf setRows = model.addressSets.getD [] ∧
        model.addressSets ≠ some [] :=
    readAddressSets_eq.mp (congrArg Model.addressSets read)
  have readListeners : resourcesOf collation listenerOf listenerRows = model.listeners :=
    congrArg Model.listeners read
  have readRoutes : resourcesOf collation httpRouteOf routeRows = model.httpRoutes :=
    congrArg Model.httpRoutes read
  have readPassthrough :
      resourcesOf collation passthroughRouteOf passthroughRows = model.passthroughRoutes :=
    congrArg Model.passthroughRoutes read
  have readBindings : resourcesOf collation sniBindingOf bindingRows = model.sniBindings :=
    congrArg Model.sniBindings read
  obtain ⟨poolsKeep, poolsHeld⟩ : _ ∧ poolFamily.Holds {} model.pools poolRows :=
    @Family.keeps_of_read _ _ _ poolFamily _ _ _ rfl putPools readPools
  obtain ⟨backendsKeep, _⟩ :=
    @Family.keeps_of_read _ _ _ backendFamily _ _ _ rfl putBackends readBackends
  obtain ⟨certificatesKeep, certificatesHeld⟩ : _ ∧ certificateFamily.Holds {} model.certificates certificateRows :=
    @Family.keeps_of_read _ _ _ certificateFamily _ _ _ rfl putCertificates readCertificates
  obtain ⟨policiesKeep, policiesHeld⟩ : _ ∧ tlsPolicyFamily.Holds {} model.tlsPolicies policyRows :=
    @Family.keeps_of_read _ _ _ tlsPolicyFamily _ _ _ rfl putPolicies readPolicies
  obtain ⟨setsKeep, _⟩ :=
    @Family.keeps_of_read _ _ _ addressSetFamily _ _ _ rfl putSets readSets
  obtain ⟨listenersKeep, listenersHeld⟩ : _ ∧ listenerFamily.Holds _ model.listeners listenerRows :=
    @Family.keeps_of_read _ _ _ listenerFamily _ _ _ rfl putListeners readListeners
  obtain ⟨routesKeep, _⟩ :=
    @Family.keeps_of_read _ _ _ httpRouteFamily _ _ _ rfl putRoutes readRoutes
  obtain ⟨passthroughKeep, _⟩ :=
    @Family.keeps_of_read _ _ _ passthroughRouteFamily _ _ _ rfl putPassthrough readPassthrough
  obtain ⟨bindingsKeep, _⟩ :=
    @Family.keeps_of_read _ _ _ sniBindingFamily _ _ _ rfl putBindings readBindings
  exact
    { engine := engineFits
      poolsAscend := @Family.ascending_of_read _ _ _ poolFamily _ _ readPools
      pools := fun pool member => pool_keeps.mp (poolsKeep pool member)
      backendsAscend := @Family.ascending_of_read _ _ _ backendFamily _ _ readBackends
      backends := fun backend member =>
        (backend_keeps poolsHeld).mp (backendsKeep backend member)
      certificatesAscend :=
        @Family.ascending_of_read _ _ _ certificateFamily _ _ readCertificates
      certificates := fun certificate member =>
        certificate_keeps.mp (certificatesKeep certificate member)
      policiesAscend := @Family.ascending_of_read _ _ _ tlsPolicyFamily _ _ readPolicies
      policies := fun policy member => tlsPolicy_keeps.mp (policiesKeep policy member)
      setsFilled := setsFilled
      setsAscend := @Family.ascending_of_read _ _ _ addressSetFamily _ _ readSets
      sets := fun set member => addressSet_keeps.mp (setsKeep set member)
      listenersAscend := @Family.ascending_of_read _ _ _ listenerFamily _ _ readListeners
      listeners := fun listener member =>
        (listener_keeps poolsHeld policiesHeld certificatesHeld).mp
          (listenersKeep listener member)
      httpRoutesAscend := @Family.ascending_of_read _ _ _ httpRouteFamily _ _ readRoutes
      httpRoutes := fun route member =>
        (httpRoute_keeps poolsHeld listenersHeld listenersKeep).mp (routesKeep route member)
      passthroughAscend :=
        @Family.ascending_of_read _ _ _ passthroughRouteFamily _ _ readPassthrough
      passthroughRoutes := fun route member =>
        (passthroughRoute_keeps poolsHeld listenersHeld listenersKeep).mp
          (passthroughKeep route member)
      bindingsAscend := @Family.ascending_of_read _ _ _ sniBindingFamily _ _ readBindings
      bindings := fun binding member =>
        (sniBinding_keeps certificatesHeld listenersHeld listenersKeep).mp
          (bindingsKeep binding member) }

theorem restore_of_restorable
    (restorable : Restorable collation model) : restore collation model = .ok model := by
  let engineDone : Tables := { engine := model.engine }
  obtain ⟨poolRows, putPools, readPools, poolsHeld⟩ :=
    @Family.read_of_keeps _ _ _ poolFamily engineDone _ rfl
      restorable.poolsAscend fun pool member => pool_keeps.mpr (restorable.pools pool member)
  change poolFamily.Holds {} model.pools poolRows at poolsHeld
  let poolsDone := poolFamily.withTable engineDone poolRows
  obtain ⟨backendRows, putBackends, readBackends, _⟩ :=
    @Family.read_of_keeps _ _ _ backendFamily poolsDone _ rfl
      restorable.backendsAscend fun backend member =>
        (backend_keeps poolsHeld).mpr (restorable.backends backend member)
  let backendsDone := backendFamily.withTable poolsDone backendRows
  obtain ⟨certificateRows, putCertificates, readCertificates, certificatesHeld⟩ :=
    @Family.read_of_keeps _ _ _ certificateFamily backendsDone _ rfl
      restorable.certificatesAscend fun certificate member =>
        certificate_keeps.mpr (restorable.certificates certificate member)
  change certificateFamily.Holds {} model.certificates certificateRows at certificatesHeld
  let certificatesDone := certificateFamily.withTable backendsDone certificateRows
  obtain ⟨policyRows, putPolicies, readPolicies, policiesHeld⟩ :=
    @Family.read_of_keeps _ _ _ tlsPolicyFamily certificatesDone _ rfl
      restorable.policiesAscend fun policy member =>
        tlsPolicy_keeps.mpr (restorable.policies policy member)
  change tlsPolicyFamily.Holds {} model.tlsPolicies policyRows at policiesHeld
  let policiesDone := tlsPolicyFamily.withTable certificatesDone policyRows
  obtain ⟨setRows, putSets, readSets, _⟩ :=
    @Family.read_of_keeps _ _ _ addressSetFamily policiesDone _ rfl
      restorable.setsAscend fun set member =>
        addressSet_keeps.mpr (restorable.sets set member)
  let setsDone := addressSetFamily.withTable policiesDone setRows
  have listenersKeep : ∀ listener ∈ model.listeners,
      listenerFamily.Keeps setsDone listener :=
    fun listener member => (listener_keeps poolsHeld policiesHeld certificatesHeld).mpr
      (restorable.listeners listener member)
  obtain ⟨listenerRows, putListeners, readListeners, listenersHeld⟩ :=
    @Family.read_of_keeps _ _ _ listenerFamily setsDone _ rfl
      restorable.listenersAscend listenersKeep
  let listenersDone := listenerFamily.withTable setsDone listenerRows
  obtain ⟨routeRows, putRoutes, readRoutes, _⟩ :=
    @Family.read_of_keeps _ _ _ httpRouteFamily listenersDone _ rfl
      restorable.httpRoutesAscend fun route member =>
        (httpRoute_keeps poolsHeld listenersHeld listenersKeep).mpr
          (restorable.httpRoutes route member)
  let routesDone := httpRouteFamily.withTable listenersDone routeRows
  obtain ⟨passthroughRows, putPassthrough, readPassthrough, _⟩ :=
    @Family.read_of_keeps _ _ _ passthroughRouteFamily routesDone _ rfl
      restorable.passthroughAscend fun route member =>
        (passthroughRoute_keeps poolsHeld listenersHeld listenersKeep).mpr
          (restorable.passthroughRoutes route member)
  let passthroughDone := passthroughRouteFamily.withTable routesDone passthroughRows
  obtain ⟨bindingRows, putBindings, readBindings, _⟩ :=
    @Family.read_of_keeps _ _ _ sniBindingFamily passthroughDone _ rfl
      restorable.bindingsAscend fun binding member =>
        (sniBinding_keeps certificatesHeld listenersHeld listenersKeep).mpr
          (restorable.bindings binding member)
  have enabled : ∀ row ∈ backendRows.values, row.enabled = true :=
    backendStage_enabled (fun _ member => absurd member List.not_mem_nil) putBackends
  rw [← OrderedMap.filterValues_eq_self enabled] at readBackends
  apply restore_eq_ok.mpr
  refine ⟨_, applyOps_opsOf.mpr ⟨_, _, _, _, _, _, _, _, _,
    engineStage_ok.mpr ⟨restorable.engine, rfl⟩, putPools, putBackends, putCertificates,
    putPolicies, putSets, putListeners, putRoutes, putPassthrough, putBindings⟩, ?_⟩
  let restored := sniBindingFamily.withTable passthroughDone bindingRows
  have readFilledSets : readAddressSets collation restored = model.addressSets :=
    readAddressSets_eq.mpr ⟨readSets, restorable.setsFilled⟩
  calc readModel collation restored
      = { engine := model.engine
          listeners := resourcesOf collation listenerOf listenerRows
          httpRoutes := resourcesOf collation httpRouteOf routeRows
          passthroughRoutes := resourcesOf collation passthroughRouteOf passthroughRows
          pools := resourcesOf collation poolOf poolRows
          backends :=
            resourcesOf collation backendOf (backendRows.filterValues BackendRow.enabled)
          certificates := resourcesOf collation certificateOf certificateRows
          tlsPolicies := resourcesOf collation tlsPolicyOf policyRows
          sniBindings := resourcesOf collation sniBindingOf bindingRows
          addressSets := readAddressSets collation restored } := rfl
    _ = model := by
        rw [show resourcesOf collation listenerOf listenerRows = _ from readListeners,
          show resourcesOf collation httpRouteOf routeRows = _ from readRoutes,
          show resourcesOf collation passthroughRouteOf passthroughRows = _ from readPassthrough,
          show resourcesOf collation poolOf poolRows = _ from readPools,
          show resourcesOf collation backendOf _ = _ from readBackends,
          show resourcesOf collation certificateOf certificateRows = _ from readCertificates,
          show resourcesOf collation tlsPolicyOf policyRows = _ from readPolicies,
          show resourcesOf collation sniBindingOf bindingRows = _ from readBindings,
          readFilledSets]

/-- A model comes back from a rollback unchanged exactly when it is restorable. -/
theorem rollback_restores_iff :
    restore collation model = .ok model ↔ Restorable collation model :=
  ⟨restorable_of_restore, restore_of_restorable⟩

/-- One pool whose only backend takes a bounded number of connections. -/
def softLimited : Model :=
  { pools := [{ key := "app", protocolClass := .http, algorithm := .roundRobin }]
    backends :=
      [{ key := "a1"
         pool := "app"
         host := "10.0.0.1"
         port := 8080
         weight := 1
         softMaxConns := some 100 }] }

/-- The bound has no column: the operations succeed and the bound is gone. -/
theorem soft_limit_is_lost :
    restore characterOrder softLimited =
        .ok { softLimited with
          backends :=
            [{ key := "a1", pool := "app", host := "10.0.0.1", port := 8080, weight := 1 }] } ∧
      restore characterOrder softLimited ≠ .ok softLimited := by
  decide +kernel

end Store

end Barycenter
