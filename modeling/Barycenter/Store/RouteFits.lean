import Barycenter.Store.ListenerFits

/-!
# Which routes and bindings keep to their rows

A route refers to a listener of its family, a certificate binding to a listener
over TLS.  The protocol in the reference is the one in the row of the listener,
and that one is the protocol of the listener itself.
-/

namespace Barycenter

namespace Store

open Config

variable {tables stored : Tables} {model : Model}

theorem listenerRow_protocol {listener : Listener} {row : ListenerRow}
    (spread : listenerRow stored listener = .ok row) :
    row.protocol = protocolOf listener.body := by
  obtain ⟨key, bind, port, enabled, sourceAllow, body⟩ := listener
  cases body <;>
    simp only [listenerRow, Outcome.bind_ok, pure, Except.pure, Except.ok.injEq] at spread
  case http =>
    obtain ⟨_, _, rfl⟩ := spread
    rfl
  case https =>
    obtain ⟨_, _, _, _, _, _, rfl⟩ := spread
    rfl
  case tlsPassthrough =>
    obtain ⟨_, _, _, _, rfl⟩ := spread
    rfl
  case tcp =>
    obtain ⟨_, _, rfl⟩ := spread
    rfl
  case udp =>
    obtain ⟨_, _, rfl⟩ := spread
    rfl

theorem listenerRef_ok
    {key subject : String} {ref : ListenerRef}
    (listeners : listenerFamily.Holds stored model.listeners tables.listeners)
    (kept : ∀ listener ∈ model.listeners, listenerFamily.Keeps stored listener) :
    listenerRef tables key subject = .ok ref ↔
      ref.key = key ∧ HasListener model key fun protocol => decide (protocol = ref.protocol) := by
  have held := listeners key
  unfold listenerRef HasListener
  simp only [decide_eq_true_eq]
  cases found : tables.listeners.get? key with
  | none =>
      simp only [reduceCtorEq, false_iff, not_and]
      rintro rfl ⟨listener, member, same, _⟩
      obtain ⟨row, ⟨spread, _⟩, _⟩ := kept listener member
      have present := (held row).mpr ⟨listener, member, same, spread⟩
      rw [found] at present
      cases present
  | some row =>
      obtain ⟨listener, member, same, spread⟩ := (held row).mp found
      simp only [Except.ok.injEq]
      constructor
      · rintro rfl
        exact ⟨rfl, listener, member, same, (listenerRow_protocol spread).symm⟩
      · rintro ⟨rfl, other, otherMember, otherSame, otherProtocol⟩
        obtain ⟨otherRow, ⟨otherSpread, _⟩, _⟩ := kept other otherMember
        have present := (held otherRow).mpr ⟨other, otherMember, otherSame, otherSpread⟩
        obtain rfl : row = otherRow := Option.some.inj (found.symm.trans present)
        exact congrArg (ListenerRef.mk ref.key)
          ((listenerRow_protocol otherSpread).trans otherProtocol)

theorem exists_listenerRef
    {key subject : String} {suits : ListenerProtocol → Bool}
    (listeners : listenerFamily.Holds stored model.listeners tables.listeners)
    (kept : ∀ listener ∈ model.listeners, listenerFamily.Keeps stored listener) :
    (∃ ref, listenerRef tables key subject = .ok ref ∧ suits ref.protocol = true) ↔
      HasListener model key suits := by
  simp only [listenerRef_ok listeners kept]
  constructor
  · rintro ⟨ref, ⟨_, listener, member, same, protocol⟩, suited⟩
    rw [← of_decide_eq_true protocol] at suited
    exact ⟨listener, member, same, suited⟩
  · rintro ⟨listener, member, same, suited⟩
    exact ⟨⟨key, protocolOf listener.body⟩,
      ⟨rfl, listener, member, same, decide_eq_true rfl⟩, suited⟩

/-! ## Routes of web listeners -/

def routedRow (route : HttpRoute) (listener : ListenerRef) : HttpRouteRow :=
  match route.action with
  | .proxy pool websocket requestHeaders rewritePrefix =>
      { listener := listener
        hosts := route.hosts
        priority := route.priority
        pathPrefix := route.pathPrefix
        pathPrefixes := route.pathPrefixes
        sourceRules := route.sourceRules
        actionKind := .proxy
        pool := some { key := pool, protocolClass := .http }
        websocket := some websocket
        requestHeaders := storedHeaders requestHeaders
        rewritePrefix := rewritePrefix }
  | .redirect location status =>
      { listener := listener
        hosts := route.hosts
        priority := route.priority
        pathPrefix := route.pathPrefix
        pathPrefixes := route.pathPrefixes
        sourceRules := route.sourceRules
        actionKind := .redirect
        redirectTo := some location
        status := some status }
  | .reject status =>
      { listener := listener
        hosts := route.hosts
        priority := route.priority
        pathPrefix := route.pathPrefix
        pathPrefixes := route.pathPrefixes
        sourceRules := route.sourceRules
        actionKind := .reject
        status := some status }

@[simp]
theorem listColumn_storedHeaders {headers : Option (List HeaderRule)} :
    listColumn (storedHeaders headers) = headers ↔ headers ≠ some [] := by
  match headers with
  | none | some [] | some (_ :: _) => simp [storedHeaders, listColumn]

variable {route : HttpRoute} {listener : ListenerRef}

theorem routedRow_fits :
    ((∀ check ∈ httpRouteChecks route.key (routedRow route listener), check.2 = true) ∧
        httpRouteOf route.key (routedRow route listener) = route) ↔
      listener.protocol.httpFamily = true ∧ listener.key = route.listener ∧
        HttpRouteColumnsFit route := by
  simp only [httpRouteChecks, List.forall_mem_cons, List.not_mem_nil, false_implies,
    implies_true, and_true, Bool.or_eq_true, Bool.and_eq_true, decide_eq_true_eq,
    Option.isNone_iff_eq_none, filled_iff, integerColumn, Option.all_eq_true,
    PoolRef.isClass]
  obtain ⟨key, named, hosts, priority, path, paths, action, rules⟩ := route
  cases action with
  | proxy pool websocket headers rewrite | redirect location status | reject status =>
      simp [routedRow, HttpRouteColumnsFit, ActionColumnsFit, httpRouteOf, httpActionOf]
      tauto

theorem httpRouteRow_stands {row : HttpRouteRow}
    (pools : poolFamily.Holds {} model.pools tables.pools) :
    (httpRouteRow tables route = .ok row ∧
        ∀ check ∈ httpRouteChecks route.key row, check.2 = true) ↔
      ∃ listener, listenerRef tables route.listener s!"route '{route.key}'" = .ok listener ∧
        ActionRefersFit model route.action ∧ routedRow route listener = row ∧
          ∀ check ∈ httpRouteChecks route.key (routedRow route listener), check.2 = true := by
  obtain ⟨key, named, hosts, priority, path, paths, action, rules⟩ := route
  cases action with
  | proxy pool websocket headers rewrite =>
      simp only [httpRouteRow, Outcome.bind_ok, poolRef_ok pools, pure, Except.pure,
        Except.ok.injEq]
      constructor
      · rintro ⟨⟨listener, resolved, ⟨target, protocolClass⟩, ⟨rfl, stands⟩, rfl⟩, allowed⟩
        have classed := allowed
          ("http_route_pool_is_http", PoolRef.isClass .http ⟨target, protocolClass⟩)
          (by simp [httpRouteChecks])
        obtain rfl : protocolClass = .http := of_decide_eq_true classed
        exact ⟨listener, resolved, stands, rfl, allowed⟩
      · rintro ⟨listener, resolved, stands, rfl, allowed⟩
        exact ⟨⟨listener, resolved, ⟨_, .http⟩, ⟨rfl, stands⟩, rfl⟩, allowed⟩
  | redirect location status | reject status =>
      simp only [httpRouteRow, Outcome.bind_ok, pure, Except.pure, Except.ok.injEq]
      constructor
      · rintro ⟨⟨listener, resolved, rfl⟩, allowed⟩
        exact ⟨listener, resolved, trivial, rfl, allowed⟩
      · rintro ⟨listener, resolved, _, rfl, allowed⟩
        exact ⟨⟨listener, resolved, rfl⟩, allowed⟩

theorem httpRoute_keeps (pools : poolFamily.Holds {} model.pools tables.pools)
    (listeners : listenerFamily.Holds stored model.listeners tables.listeners)
    (kept : ∀ listener ∈ model.listeners, listenerFamily.Keeps stored listener) :
    httpRouteFamily.Keeps tables route ↔ HttpRouteFits model route := by
  have stores (row : HttpRouteRow) :
      httpRouteFamily.Stores tables route row ↔ _ := httpRouteRow_stands pools
  have refers := @exists_listenerRef tables stored model route.listener
    s!"route '{route.key}'" ListenerProtocol.httpFamily listeners kept
  simp only [Family.Keeps, stores, HttpRouteFits, ← refers]
  constructor
  · rintro ⟨_, ⟨listener, resolved, stands, rfl, allowed⟩, same⟩
    obtain ⟨suited, _, columns⟩ := routedRow_fits.mp ⟨allowed, same⟩
    exact ⟨⟨listener, resolved, suited⟩, stands, columns⟩
  · rintro ⟨⟨listener, resolved, suited⟩, stands, columns⟩
    have named := ((listenerRef_ok listeners kept).mp resolved).1
    obtain ⟨allowed, same⟩ := routedRow_fits.mpr ⟨suited, named, columns⟩
    exact ⟨_, ⟨listener, resolved, stands, rfl, allowed⟩, same⟩

/-! ## Routes of passthrough listeners -/

def passedRow (route : PassthroughRoute) (listener : ListenerRef) : PassthroughRouteRow :=
  match route.action with
  | .proxy pool =>
      { listener := listener
        snis := route.snis
        priority := route.priority
        actionKind := .proxy
        pool := some { key := pool, protocolClass := .tcp } }
  | .reject =>
      { listener := listener
        snis := route.snis
        priority := route.priority
        actionKind := .reject
        pool := none }

variable {route : PassthroughRoute}

theorem passedRow_fits :
    ((∀ check ∈ passthroughRouteChecks route.key (passedRow route listener),
          check.2 = true) ∧
        passthroughRouteOf route.key (passedRow route listener) = route) ↔
      listener.protocol = .tlsPassthrough ∧ listener.key = route.listener ∧
        keySyntax route.key = true ∧ route.priority < 2147483648 := by
  simp only [passthroughRouteChecks, List.forall_mem_cons, List.not_mem_nil,
    false_implies, implies_true, and_true, decide_eq_true_eq, integerColumn,
    Option.all_eq_true, PoolRef.isClass]
  obtain ⟨key, named, snis, priority, action⟩ := route
  cases action with
  | proxy pool | reject =>
      simp [passedRow, passthroughRouteOf]
      tauto

theorem passthroughRouteRow_stands {row : PassthroughRouteRow}
    (pools : poolFamily.Holds {} model.pools tables.pools) :
    (passthroughRouteRow tables route = .ok row ∧
        ∀ check ∈ passthroughRouteChecks route.key row, check.2 = true) ↔
      ∃ listener, listenerRef tables route.listener s!"route '{route.key}'" = .ok listener ∧
        (∀ pool, route.action = .proxy pool → HasPool model pool .tcp) ∧
          passedRow route listener = row ∧
          ∀ check ∈ passthroughRouteChecks route.key (passedRow route listener),
            check.2 = true := by
  obtain ⟨key, named, snis, priority, action⟩ := route
  cases action with
  | proxy pool =>
      simp only [passthroughRouteRow, Outcome.bind_ok, poolRef_ok pools, pure, Except.pure,
        Except.ok.injEq, PassthroughAction.proxy.injEq, forall_eq']
      constructor
      · rintro ⟨⟨listener, resolved, ⟨target, protocolClass⟩, ⟨rfl, stands⟩, rfl⟩, allowed⟩
        have classed := allowed
          ("pt_route_pool_is_tcp", PoolRef.isClass .tcp ⟨target, protocolClass⟩)
          (by simp [passthroughRouteChecks])
        obtain rfl : protocolClass = .tcp := of_decide_eq_true classed
        exact ⟨listener, resolved, stands, rfl, allowed⟩
      · rintro ⟨listener, resolved, stands, rfl, allowed⟩
        exact ⟨⟨listener, resolved, ⟨_, .tcp⟩, ⟨rfl, stands⟩, rfl⟩, allowed⟩
  | reject =>
      simp only [passthroughRouteRow, Outcome.bind_ok, pure, Except.pure,
        Except.ok.injEq, reduceCtorEq, false_implies, implies_true, true_and]
      constructor
      · rintro ⟨⟨listener, resolved, rfl⟩, allowed⟩
        exact ⟨listener, resolved, rfl, allowed⟩
      · rintro ⟨listener, resolved, rfl, allowed⟩
        exact ⟨⟨listener, resolved, rfl⟩, allowed⟩

theorem passthroughRoute_keeps (pools : poolFamily.Holds {} model.pools tables.pools)
    (listeners : listenerFamily.Holds stored model.listeners tables.listeners)
    (kept : ∀ listener ∈ model.listeners, listenerFamily.Keeps stored listener) :
    passthroughRouteFamily.Keeps tables route ↔ PassthroughRouteFits model route := by
  have stores (row : PassthroughRouteRow) :
      passthroughRouteFamily.Stores tables route row ↔ _ :=
    passthroughRouteRow_stands pools
  have refers := @exists_listenerRef tables stored model route.listener
    s!"route '{route.key}'" (fun protocol => decide (protocol = .tlsPassthrough))
    listeners kept
  simp only [Family.Keeps, stores, PassthroughRouteFits, ← refers, decide_eq_true_eq]
  constructor
  · rintro ⟨_, ⟨listener, resolved, stands, rfl, allowed⟩, same⟩
    obtain ⟨suited, _, named, ranked⟩ := passedRow_fits.mp ⟨allowed, same⟩
    exact ⟨⟨listener, resolved, suited⟩, named, ranked, stands⟩
  · rintro ⟨⟨listener, resolved, suited⟩, named, ranked, stands⟩
    have refersTo := ((listenerRef_ok listeners kept).mp resolved).1
    obtain ⟨allowed, same⟩ := passedRow_fits.mpr ⟨suited, refersTo, named, ranked⟩
    exact ⟨_, ⟨listener, resolved, stands, rfl, allowed⟩, same⟩

/-! ## Certificate bindings -/

def boundRow (binding : SniCertificateBinding) (listener : ListenerRef) : SniBindingRow :=
  { listener := listener
    certificate := binding.certificate
    hosts := binding.hosts
    ovrMinVersion := binding.override.bind TlsOverride.minVersion
    ovrMaxVersion := binding.override.bind TlsOverride.maxVersion }

theorem boundRow_fits {binding : SniCertificateBinding} :
    ((∀ check ∈ sniBindingChecks binding.key (boundRow binding listener),
          check.2 = true) ∧
        sniBindingOf binding.key (boundRow binding listener) = binding) ↔
      listener.protocol = .https ∧ listener.key = binding.listener ∧
        keySyntax binding.key = true ∧ binding.hosts ≠ [] ∧ binding.override ≠ some {} ∧
        versionsInOrder (binding.override.bind TlsOverride.minVersion)
          (binding.override.bind TlsOverride.maxVersion) = true := by
  simp only [sniBindingChecks, List.forall_mem_cons, List.not_mem_nil, false_implies,
    implies_true, and_true, decide_eq_true_eq, Bool.not_eq_true', List.isEmpty_eq_false_iff]
  obtain ⟨key, named, hosts, certificate, override⟩ := binding
  match override with
  | none | some ⟨some low, high⟩ | some ⟨none, some high⟩ =>
      simp [boundRow, sniBindingOf]
      tauto
  | some ⟨none, none⟩ => simp [boundRow, sniBindingOf]

theorem sniBinding_keeps
    {binding : SniCertificateBinding}
    (certificates : certificateFamily.Holds {} model.certificates tables.certificates)
    (listeners : listenerFamily.Holds stored model.listeners tables.listeners)
    (kept : ∀ listener ∈ model.listeners, listenerFamily.Keeps stored listener) :
    sniBindingFamily.Keeps tables binding ↔ SniBindingFits model binding := by
  have certificateRefers :=
    @Family.Holds.isSome _ _ certificateFamily {} _ _ binding.certificate certificates
      fun item => ⟨_, rfl⟩
  have refers := @exists_listenerRef tables stored model binding.listener
    s!"sniBinding '{binding.key}'" (fun protocol => decide (protocol = .https))
    listeners kept
  have spread (row : SniBindingRow) :
      sniBindingFamily.row tables binding = .ok row ↔
        (∃ listener,
          listenerRef tables binding.listener s!"sniBinding '{binding.key}'" = .ok listener ∧
            boundRow binding listener = row) ∧
          (tables.certificates.get? binding.certificate).isSome := by
    simp only [sniBindingFamily, sniBindingRow, Outcome.bind_ok, idOf_ok, pure, Except.pure,
      Except.ok.injEq, boundRow]
    constructor
    · rintro ⟨listener, resolved, _, ⟨found, rfl⟩, same⟩
      exact ⟨⟨listener, resolved, same⟩, found⟩
    · rintro ⟨⟨listener, resolved, same⟩, found⟩
      exact ⟨listener, resolved, _, ⟨found, rfl⟩, same⟩
  simp only [Family.Keeps, Family.Stores, spread, SniBindingFits, ← refers,
    decide_eq_true_eq, certificateRefers]
  constructor
  · rintro ⟨_, ⟨⟨⟨listener, resolved, rfl⟩, found⟩, allowed⟩, same⟩
    obtain ⟨suited, _, fits⟩ := boundRow_fits.mp ⟨allowed, same⟩
    exact ⟨⟨listener, resolved, suited⟩, found, fits⟩
  · rintro ⟨⟨listener, resolved, suited⟩, found, fits⟩
    have refersTo := ((listenerRef_ok listeners kept).mp resolved).1
    obtain ⟨allowed, same⟩ := boundRow_fits.mpr ⟨suited, refersTo, fits⟩
    exact ⟨_, ⟨⟨⟨listener, resolved, rfl⟩, found⟩, allowed⟩, same⟩

end Store

end Barycenter
