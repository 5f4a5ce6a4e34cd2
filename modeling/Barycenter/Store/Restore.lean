import Barycenter.Store.Family

/-!
# What a rollback restores

A rollback empties the tables and applies the operations that rebuild the model
of an older revision.  The three functions that take part in it, the one that
lists the operations, the one that applies an operation and the one that reads
the tables, were written apart.  A model comes back unchanged exactly when its
lists are sorted, every resource fits the columns and the constraints of its
row, and no resource uses a field that a column cannot tell from its absence or
that has no column at all.
-/

namespace Barycenter

namespace Store

open Config

/-! ## What fits -/

section Fits

variable (model : Model)

def HasPool (key : String) (protocolClass : ProtocolClass) : Prop :=
  ∃ pool ∈ model.pools, pool.key = key ∧ pool.protocolClass = protocolClass

def PoolFits (pool : Pool) : Prop :=
  keySyntax pool.key = true ∧
    (pool.algorithm = .hash ↔ pool.hashKey.isSome) ∧
    (pool.sendProxyProtocol.isSome → pool.protocolClass = .tcp) ∧
    (pool.healthCheck.isSome → pool.protocolClass = .http) ∧
    (pool.upstreamTls.isSome → pool.protocolClass ≠ .udp)

/-- A backend fits only without the attributes of its peer. -/
def BackendFits (backend : Backend) : Prop :=
  (∃ pool ∈ model.pools, pool.key = backend.pool) ∧
    keySyntax backend.key = true ∧ backend.host ≠ "" ∧
    (1 ≤ backend.port ∧ backend.port ≤ 65535) ∧ backend.weight < 2147483648 ∧
    backend.softMaxConns = none ∧ backend.isBackup = none

def MaterialFits (certificate : Certificate) : Prop :=
  (certificate.materialRef = none ∧ certificate.chainDigest = none ∧
      certificate.keyDigest = none) ∨
    ∃ reference chain key,
      certificate.materialRef = some reference ∧ materialRefSyntax reference = true ∧
        certificate.chainDigest = some chain ∧ digestSyntax chain = true ∧
        certificate.keyDigest = some key ∧ digestSyntax key = true

def CertificateFits (certificate : Certificate) : Prop :=
  keySyntax certificate.key = true ∧ MaterialFits certificate ∧
    (∀ acme ∈ certificate.acme, acme.domains ≠ []) ∧
    (certificate.materialRef.isSome ∨ certificate.acme.isSome)

def TlsPolicyFits (policy : TlsPolicy) : Prop :=
  keySyntax policy.key = true ∧
    versionsInOrder (some policy.minVersion) policy.maxVersion = true

def AddressSetFits (set : AddressSet) : Prop :=
  keySyntax set.key = true ∧ set.cidrs ≠ [] ∧
    (set.sourceOptions.isSome → set.source.isSome)

def EngineFits (settings : EngineSettings) : Prop :=
  (∀ number ∈ settings.workerShutdownTimeoutS, 1 ≤ number ∧ number ≤ 86400) ∧
    (∀ number ∈ settings.membershipDictKb, 64 ≤ number ∧ number ≤ 1048576) ∧
    (∀ number ∈ settings.acmeDictKb, 32 ≤ number ∧ number ≤ 1048576)

def OutcomeFits (protocolClass : ProtocolClass) : Option SniOutcome → Prop
  | some (.pool key) => HasPool model key protocolClass
  | _ => True

def TrustFits (accept : Option InboundProxyProtocol) : Prop :=
  ∀ boundary ∈ accept, boundary.trustedCidrs ≠ []

/-- A profile without any field, and a strict priority that is switched off,
cannot be told from their absence. -/
def ProfileFits (profile : Option HttpProfile) : Prop :=
  profile ≠ some {} ∧ ∀ fields ∈ profile, fields.strictPriority ≠ some false

def HttpColumnsFit
    (accept : Option InboundProxyProtocol) (realIp : Option InboundRealIpHeader)
    (profile : Option HttpProfile) (hosts : Option (List String)) : Prop :=
  TrustFits accept ∧ (∀ header ∈ realIp, header.trustedCidrs ≠ []) ∧
    (realIp.isSome → accept = none) ∧ ProfileFits profile ∧ hosts ≠ some []

def BodyColumnsFit (sourceAllow : Option (List String)) : ListenerBody → Prop
  | .http body =>
      HttpColumnsFit body.acceptProxyProtocol body.realIpFromHeader body.http body.hosts
  | .https body =>
      HttpColumnsFit body.acceptProxyProtocol body.realIpFromHeader body.http body.hosts ∧
        ∀ port ∈ body.httpRedirect, 1 ≤ port ∧ port ≤ 65535
  | .tlsPassthrough body =>
      TrustFits body.acceptProxyProtocol ∧
        (∀ seconds ∈ body.prereadTimeoutS, 0 < seconds ∧ seconds < 2147483648) ∧
        (sourceAllow.isSome → body.acceptProxyProtocol = none)
  | .tcp body =>
      TrustFits body.acceptProxyProtocol ∧
        (sourceAllow.isSome → body.acceptProxyProtocol = none)
  | .udp _ => True

def ListenerColumnsFit (listener : Listener) : Prop :=
  keySyntax listener.key = true ∧ listener.bind ≠ "" ∧
    (1 ≤ listener.port ∧ listener.port ≤ 65535) ∧ listener.sourceAllow ≠ some [] ∧
    BodyColumnsFit listener.sourceAllow listener.body

def BodyRefersFit : ListenerBody → Prop
  | .http body => OutcomeFits model .http (body.http.bind HttpProfile.defaultAction)
  | .https body =>
      OutcomeFits model .http (body.http.bind HttpProfile.defaultAction) ∧
        (∃ policy ∈ model.tlsPolicies, policy.key = body.tls.policy) ∧
        ∃ certificate ∈ model.certificates,
          certificate.key = body.tls.defaultCertificate
  | .tlsPassthrough body =>
      OutcomeFits model .tcp body.onUnmatchedSni ∧ OutcomeFits model .tcp body.onNoSni
  | .tcp body => HasPool model body.defaultPool .tcp
  | .udp body => HasPool model body.defaultPool .udp

def ListenerFits (listener : Listener) : Prop :=
  BodyRefersFit model listener.body ∧ ListenerColumnsFit listener

def protocolOf : ListenerBody → ListenerProtocol
  | .http _ => .http
  | .https _ => .https
  | .tlsPassthrough _ => .tlsPassthrough
  | .tcp _ => .tcp
  | .udp _ => .udp

def HasListener (key : String) (suits : ListenerProtocol → Bool) : Prop :=
  ∃ listener ∈ model.listeners,
    listener.key = key ∧ suits (protocolOf listener.body) = true

def ActionRefersFit : HttpAction → Prop
  | .proxy pool _ _ _ => HasPool model pool .http
  | _ => True

/-- A list of request headers that is present is not empty. -/
def ActionColumnsFit : HttpAction → Prop
  | .proxy _ _ requestHeaders rewritePrefix =>
      requestHeaders ≠ some [] ∧ ∀ path ∈ rewritePrefix, rewriteSyntax path = true
  | .redirect _ status => status ∈ [301, 302, 307, 308]
  | .reject status => status ∈ [403, 404, 444]

def HttpRouteColumnsFit (route : HttpRoute) : Prop :=
  keySyntax route.key = true ∧ route.priority < 2147483648 ∧
    (route.pathPrefixes = none ∨ route.pathPrefix = none) ∧
    route.pathPrefixes ≠ some [] ∧
    (∀ rules ∈ route.sourceRules, 1 ≤ rules.length ∧ rules.length ≤ 20) ∧
    ActionColumnsFit route.action

def HttpRouteFits (route : HttpRoute) : Prop :=
  HasListener model route.listener ListenerProtocol.httpFamily ∧
    ActionRefersFit model route.action ∧ HttpRouteColumnsFit route

def PassthroughRouteFits (route : PassthroughRoute) : Prop :=
  HasListener model route.listener (fun protocol => decide (protocol = .tlsPassthrough)) ∧
    keySyntax route.key = true ∧ route.priority < 2147483648 ∧
    ∀ pool, route.action = .proxy pool → HasPool model pool .tcp

/-- An override without any version cannot be told from its absence. -/
def SniBindingFits (binding : SniCertificateBinding) : Prop :=
  HasListener model binding.listener (fun protocol => decide (protocol = .https)) ∧
    (∃ certificate ∈ model.certificates, certificate.key = binding.certificate) ∧
    keySyntax binding.key = true ∧ binding.hosts ≠ [] ∧ binding.override ≠ some {} ∧
    versionsInOrder (binding.override.bind TlsOverride.minVersion)
      (binding.override.bind TlsOverride.maxVersion) = true

end Fits

/-! ## The kinds of resources -/

def poolFamily : Family Pool PoolRow :=
  { table := Tables.pools
    withTable := fun tables rows => { tables with pools := rows }
    key := Pool.key
    row := fun _ pool => .ok (poolRow pool)
    checks := poolChecks
    put := putPool
    resource := poolOf
    table_withTable := fun _ _ => rfl
    withTable_withTable := fun _ _ _ => rfl
    withTable_table := fun _ => rfl
    row_withTable := fun _ _ _ => rfl
    put_fresh := by
      intro tables pool fresh
      simp only [putPool, fresh]
      rfl
    put_frame := by
      intro tables item after succeeded
      simp only [putPool, Outcome.bind_ok, pure, Except.pure, Except.ok.injEq] at succeeded
      rcases succeeded with ⟨_, _, _, _, rfl⟩
      rfl
    key_resource := fun _ _ => rfl }

def backendFamily : Family Backend BackendRow :=
  { table := Tables.backends
    withTable := fun tables rows => { tables with backends := rows }
    key := Backend.key
    row := fun tables backend =>
      (poolRef tables backend.pool s!"backend '{backend.key}'").map fun _ =>
        backendRow backend
    checks := backendChecks
    put := putBackend
    resource := backendOf
    table_withTable := fun _ _ => rfl
    withTable_withTable := fun _ _ _ => rfl
    withTable_table := fun _ => rfl
    row_withTable := fun _ _ _ => rfl
    put_fresh := by
      intro tables backend _
      unfold putBackend
      cases poolRef tables backend.pool s!"backend '{backend.key}'" <;> rfl
    put_frame := by
      intro tables item after succeeded
      simp only [putBackend, Outcome.bind_ok, pure, Except.pure, Except.ok.injEq] at succeeded
      rcases succeeded with ⟨_, _, _, _, rfl⟩
      rfl
    key_resource := fun _ _ => rfl }

def certificateFamily : Family Certificate CertificateRow :=
  { table := Tables.certificates
    withTable := fun tables rows => { tables with certificates := rows }
    key := Certificate.key
    row := fun _ certificate => .ok (certificateRow certificate)
    checks := certificateChecks
    put := putCertificate
    resource := certificateOf
    table_withTable := fun _ _ => rfl
    withTable_withTable := fun _ _ _ => rfl
    withTable_table := fun _ => rfl
    row_withTable := fun _ _ _ => rfl
    put_fresh := fun _ _ _ => rfl
    put_frame := by
      intro tables item after succeeded
      simp only [putCertificate, Outcome.bind_ok, pure, Except.pure, Except.ok.injEq] at succeeded
      rcases succeeded with ⟨_, _, rfl⟩
      rfl
    key_resource := fun _ _ => rfl }

def tlsPolicyFamily : Family TlsPolicy TlsPolicyRow :=
  { table := Tables.tlsPolicies
    withTable := fun tables rows => { tables with tlsPolicies := rows }
    key := TlsPolicy.key
    row := fun _ policy => .ok (tlsPolicyRow policy)
    checks := tlsPolicyChecks
    put := putTlsPolicy
    resource := tlsPolicyOf
    table_withTable := fun _ _ => rfl
    withTable_withTable := fun _ _ _ => rfl
    withTable_table := fun _ => rfl
    row_withTable := fun _ _ _ => rfl
    put_fresh := fun _ _ _ => rfl
    put_frame := by
      intro tables item after succeeded
      simp only [putTlsPolicy, Outcome.bind_ok, pure, Except.pure, Except.ok.injEq] at succeeded
      rcases succeeded with ⟨_, _, rfl⟩
      rfl
    key_resource := fun _ _ => rfl }

def addressSetFamily : Family AddressSet AddressSetRow :=
  { table := Tables.addressSets
    withTable := fun tables rows => { tables with addressSets := rows }
    key := AddressSet.key
    row := fun _ set => .ok (addressSetRow set)
    checks := addressSetChecks
    put := putAddressSet
    resource := addressSetOf
    table_withTable := fun _ _ => rfl
    withTable_withTable := fun _ _ _ => rfl
    withTable_table := fun _ => rfl
    row_withTable := fun _ _ _ => rfl
    put_fresh := fun _ _ _ => rfl
    put_frame := by
      intro tables item after succeeded
      simp only [putAddressSet, Outcome.bind_ok, pure, Except.pure, Except.ok.injEq] at succeeded
      rcases succeeded with ⟨_, _, rfl⟩
      rfl
    key_resource := fun _ _ => rfl }

def listenerFamily : Family Listener ListenerRow :=
  { table := Tables.listeners
    withTable := fun tables rows => { tables with listeners := rows }
    key := Listener.key
    row := listenerRow
    checks := listenerChecks
    put := putListener
    resource := listenerOf
    table_withTable := fun _ _ => rfl
    withTable_withTable := fun _ _ _ => rfl
    withTable_table := fun _ => rfl
    row_withTable := fun _ _ _ => rfl
    put_fresh := by
      intro tables listener fresh
      simp only [putListener, fresh]
      rfl
    put_frame := by
      intro tables item after succeeded
      simp only [putListener, Outcome.bind_ok, pure, Except.pure, Except.ok.injEq] at succeeded
      rcases succeeded with ⟨_, _, _, _, _, _, rfl⟩
      rfl
    key_resource := fun _ _ => rfl }

def httpRouteFamily : Family HttpRoute HttpRouteRow :=
  { table := Tables.httpRoutes
    withTable := fun tables rows => { tables with httpRoutes := rows }
    key := HttpRoute.key
    row := httpRouteRow
    checks := httpRouteChecks
    put := putHttpRoute
    resource := httpRouteOf
    table_withTable := fun _ _ => rfl
    withTable_withTable := fun _ _ _ => rfl
    withTable_table := fun _ => rfl
    row_withTable := fun _ _ _ => rfl
    put_fresh := fun _ _ _ => rfl
    put_frame := by
      intro tables item after succeeded
      simp only [putHttpRoute, Outcome.bind_ok, pure, Except.pure, Except.ok.injEq] at succeeded
      rcases succeeded with ⟨_, _, _, _, rfl⟩
      rfl
    key_resource := fun _ _ => rfl }

def passthroughRouteFamily : Family PassthroughRoute PassthroughRouteRow :=
  { table := Tables.passthroughRoutes
    withTable := fun tables rows => { tables with passthroughRoutes := rows }
    key := PassthroughRoute.key
    row := passthroughRouteRow
    checks := passthroughRouteChecks
    put := putPassthroughRoute
    resource := passthroughRouteOf
    table_withTable := fun _ _ => rfl
    withTable_withTable := fun _ _ _ => rfl
    withTable_table := fun _ => rfl
    row_withTable := fun _ _ _ => rfl
    put_fresh := fun _ _ _ => rfl
    put_frame := by
      intro tables item after succeeded
      simp only [putPassthroughRoute, Outcome.bind_ok, pure, Except.pure, Except.ok.injEq] at succeeded
      rcases succeeded with ⟨_, _, _, _, rfl⟩
      rfl
    key_resource := fun _ _ => rfl }

def sniBindingFamily : Family SniCertificateBinding SniBindingRow :=
  { table := Tables.sniBindings
    withTable := fun tables rows => { tables with sniBindings := rows }
    key := SniCertificateBinding.key
    row := sniBindingRow
    checks := sniBindingChecks
    put := putSniBinding
    resource := sniBindingOf
    table_withTable := fun _ _ => rfl
    withTable_withTable := fun _ _ _ => rfl
    withTable_table := fun _ => rfl
    row_withTable := fun _ _ _ => rfl
    put_fresh := fun _ _ _ => rfl
    put_frame := by
      intro tables item after succeeded
      simp only [putSniBinding, Outcome.bind_ok, pure, Except.pure, Except.ok.injEq] at succeeded
      rcases succeeded with ⟨_, _, _, _, rfl⟩
      rfl
    key_resource := fun _ _ => rfl }

end Store

end Barycenter
