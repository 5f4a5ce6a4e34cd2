import Barycenter.Foundation.Outcome
import Barycenter.Store.Tables

/-!
# Patches of the working tables

A patch puts or deletes one resource.  Putting a resource spreads it over the
columns of its row: a field that the protocol of a listener does not have is
pinned to nothing, so that it cannot come back when the protocol changes.  A
row that is there already is overwritten in place.
-/

namespace Barycenter

namespace Store

open Config

inductive Resource where
  | engine (settings : EngineSettings)
  | pool (pool : Pool)
  | backend (backend : Backend)
  | certificate (certificate : Certificate)
  | tlsPolicy (policy : TlsPolicy)
  | addressSet (set : AddressSet)
  | listener (listener : Listener)
  | httpRoute (route : HttpRoute)
  | passthroughRoute (route : PassthroughRoute)
  | sniBinding (binding : SniCertificateBinding)
deriving DecidableEq, Repr

inductive ResourceKind where
  | engine
  | pool
  | backend
  | certificate
  | tlsPolicy
  | addressSet
  | listener
  | httpRoute
  | passthroughRoute
  | sniBinding
deriving DecidableEq, Repr

namespace ResourceKind

def text : ResourceKind → String
  | .engine => "engine"
  | .pool => "pool"
  | .backend => "backend"
  | .certificate => "certificate"
  | .tlsPolicy => "tlsPolicy"
  | .addressSet => "addressSet"
  | .listener => "listener"
  | .httpRoute => "httpRoute"
  | .passthroughRoute => "passthroughRoute"
  | .sniBinding => "sniBinding"

end ResourceKind

inductive PatchOp where
  | put (resource : Resource)
  | delete (kind : ResourceKind) (key : String)
deriving DecidableEq, Repr

/-! ## References -/

/-- The pool with a key, with its class: a composite foreign key needs both. -/
def poolRef (tables : Tables) (key subject : String) : Except StoreError PoolRef :=
  match tables.pools.get? key with
  | none =>
      .error
        { status := 422
          code := "unknown_pool"
          message := s!"'{subject}' 가 존재하지 않는 풀 '{key}' 를 참조한다" }
  | some row => .ok { key := key, protocolClass := row.protocolClass }

def listenerRef
    (tables : Tables) (key subject : String) : Except StoreError ListenerRef :=
  match tables.listeners.get? key with
  | none =>
      .error
        { status := 422
          code := "unknown_listener"
          message := s!"'{subject}' 가 존재하지 않는 리스너 '{key}' 를 참조한다" }
  | some row => .ok { key := key, protocol := row.protocol }

def idOf {α : Type}
    (table : OrderedMap String α) (key subject : String) : Except StoreError String :=
  match table.get? key with
  | none =>
      .error
        { status := 422
          code := "unknown_reference"
          message := s!"'{subject}' 가 존재하지 않는 '{key}' 를 참조한다" }
  | some _ => .ok key

def optionalPoolRef
    (tables : Tables) (key : Option String) (subject : String) :
    Except StoreError (Option PoolRef) :=
  match key with
  | none => .ok none
  | some key => (poolRef tables key subject).map some

/-! ## Rows of resources -/

def poolRow (pool : Pool) : PoolRow :=
  { protocolClass := pool.protocolClass
    algorithm := pool.algorithm
    hashKey := pool.hashKey
    sendProxyProtocol := pool.sendProxyProtocol
    healthCheck := pool.healthCheck
    upstreamTls := pool.upstreamTls
    discovery := pool.discovery }

def backendRow (backend : Backend) : BackendRow :=
  { pool := backend.pool
    host := backend.host
    port := backend.port
    weight := backend.weight
    enabled := true }

def certificateRow (certificate : Certificate) : CertificateRow :=
  { materialRef := certificate.materialRef
    chainDigest := certificate.chainDigest
    keyDigest := certificate.keyDigest
    acmeAccount := certificate.acme.map AcmeIntent.account
    acmeDomains := certificate.acme.map AcmeIntent.domains }

def tlsPolicyRow (policy : TlsPolicy) : TlsPolicyRow :=
  { minVersion := policy.minVersion
    maxVersion := policy.maxVersion
    sniHostMismatch := policy.sniHostMismatch
    cipherPolicy := policy.cipherPolicy
    hsts := policy.hsts }

def addressSetRow (set : AddressSet) : AddressSetRow :=
  { cidrs := set.cidrs
    source := set.source
    sourceOptions := set.sourceOptions }

def outcomePool : Option SniOutcome → Option String
  | some (.pool key) => some key
  | _ => none

def outcomeReject : Option SniOutcome → Option Bool
  | some .reject => some true
  | _ => none

def baseRow (listener : Listener) (protocol : ListenerProtocol) : ListenerRow :=
  { protocol := protocol
    bind := listener.bind
    port := listener.port
    enabled := listener.enabled
    sourceAllow := listener.sourceAllow }

def trusted (accept : Option InboundProxyProtocol) : Option (List String) :=
  accept.map InboundProxyProtocol.trustedCidrs

/-- The columns of a profile, the pool of the default action apart. -/
def withProfile (row : ListenerRow) (profile : Option HttpProfile) : ListenerRow :=
  { row with
    httpDefaultReject := outcomeReject (profile.bind HttpProfile.defaultAction)
    proxyLimits := profile.bind HttpProfile.limits
    headerRules := profile.bind HttpProfile.headers
    rateLimit := profile.bind HttpProfile.rateLimit
    httpStrictPriority :=
      if profile.bind HttpProfile.strictPriority = some true then some true else none }

def withRealIp (row : ListenerRow) (realIp : Option InboundRealIpHeader) : ListenerRow :=
  { row with
    realIpHeader := realIp.map InboundRealIpHeader.header
    realIpHeaderCidrs := realIp.map InboundRealIpHeader.trustedCidrs }

def listenerRow (tables : Tables) (listener : Listener) : Except StoreError ListenerRow :=
  let subject := s!"listener '{listener.key}'"
  match listener.body with
  | .http body => do
      let pool ←
        optionalPoolRef tables (outcomePool (body.http.bind HttpProfile.defaultAction)) subject
      let row := withRealIp (withProfile (baseRow listener .http) body.http) body.realIpFromHeader
      return { row with
        acceptProxyCidrs := trusted body.acceptProxyProtocol
        httpDefaultPool := pool
        hosts := body.hosts }
  | .https body => do
      let pool ←
        optionalPoolRef tables (outcomePool (body.http.bind HttpProfile.defaultAction)) subject
      let policy ← idOf tables.tlsPolicies body.tls.policy (subject ++ " 의 tls.policy")
      let certificate ←
        idOf tables.certificates body.tls.defaultCertificate
          (subject ++ " 의 tls.defaultCertificate")
      let row := withRealIp (withProfile (baseRow listener .https) body.http) body.realIpFromHeader
      return { row with
        acceptProxyCidrs := trusted body.acceptProxyProtocol
        httpDefaultPool := pool
        tlsPolicy := some policy
        tlsDefaultCert := some certificate
        http2 := body.http2
        hosts := body.hosts
        httpRedirectPort := body.httpRedirect }
  | .tlsPassthrough body => do
      let unmatched ← optionalPoolRef tables (outcomePool body.onUnmatchedSni) subject
      let absent ← optionalPoolRef tables (outcomePool body.onNoSni) subject
      return { baseRow listener .tlsPassthrough with
        acceptProxyCidrs := trusted body.acceptProxyProtocol
        onUnmatchedSniPool := unmatched
        onUnmatchedSniReject := outcomeReject body.onUnmatchedSni
        onNoSniPool := absent
        onNoSniReject := outcomeReject body.onNoSni
        prereadTimeoutS := body.prereadTimeoutS }
  | .tcp body => do
      let pool ← poolRef tables body.defaultPool subject
      return { baseRow listener .tcp with
        acceptProxyCidrs := trusted body.acceptProxyProtocol
        defaultPool := some pool }
  | .udp body => do
      let pool ← poolRef tables body.defaultPool subject
      return { baseRow listener .udp with
        udpPreset := some body.preset
        defaultPool := some pool }

/-- An empty list of request headers is stored as none. -/
def storedHeaders (headers : Option (List HeaderRule)) : Option (List HeaderRule) :=
  headers.filter fun rules => !rules.isEmpty

def httpRouteRow (tables : Tables) (route : HttpRoute) : Except StoreError HttpRouteRow := do
  let subject := s!"route '{route.key}'"
  let listener ← listenerRef tables route.listener subject
  match route.action with
  | .proxy pool websocket requestHeaders rewritePrefix =>
      let pool ← poolRef tables pool subject
      return {
        listener := listener
        hosts := route.hosts
        priority := route.priority
        pathPrefix := route.pathPrefix
        pathPrefixes := route.pathPrefixes
        sourceRules := route.sourceRules
        actionKind := .proxy
        pool := some pool
        websocket := some websocket
        requestHeaders := storedHeaders requestHeaders
        rewritePrefix := rewritePrefix }
  | .redirect location status =>
      return {
        listener := listener
        hosts := route.hosts
        priority := route.priority
        pathPrefix := route.pathPrefix
        pathPrefixes := route.pathPrefixes
        sourceRules := route.sourceRules
        actionKind := .redirect
        redirectTo := some location
        status := some status }
  | .reject status =>
      return {
        listener := listener
        hosts := route.hosts
        priority := route.priority
        pathPrefix := route.pathPrefix
        pathPrefixes := route.pathPrefixes
        sourceRules := route.sourceRules
        actionKind := .reject
        status := some status }

def passthroughRouteRow
    (tables : Tables) (route : PassthroughRoute) :
    Except StoreError PassthroughRouteRow := do
  let subject := s!"route '{route.key}'"
  let listener ← listenerRef tables route.listener subject
  match route.action with
  | .proxy pool =>
      let pool ← poolRef tables pool subject
      return {
        listener := listener
        snis := route.snis
        priority := route.priority
        actionKind := .proxy
        pool := some pool }
  | .reject =>
      return {
        listener := listener
        snis := route.snis
        priority := route.priority
        actionKind := .reject
        pool := none }

def sniBindingRow
    (tables : Tables) (binding : SniCertificateBinding) :
    Except StoreError SniBindingRow := do
  let subject := s!"sniBinding '{binding.key}'"
  let listener ← listenerRef tables binding.listener subject
  let certificate ←
    idOf tables.certificates binding.certificate (subject ++ " 의 certificate")
  return {
    listener := listener
    certificate := certificate
    hosts := binding.hosts
    ovrMinVersion := binding.override.bind TlsOverride.minVersion
    ovrMaxVersion := binding.override.bind TlsOverride.maxVersion }

/-! ## References into a row that changes -/

def refersToPool (key : String) (ref : Option PoolRef) : Bool :=
  ref.any fun ref => decide (ref.key = key)

def ListenerRow.poolRefs (row : ListenerRow) : List (Option PoolRef) :=
  [row.defaultPool, row.httpDefaultPool, row.onUnmatchedSniPool, row.onNoSniPool]

def poolReferenced (tables : Tables) (key : String) : Bool :=
  tables.listeners.values.any (fun row => row.poolRefs.any (refersToPool key)) ||
    tables.httpRoutes.values.any (fun row => refersToPool key row.pool) ||
    tables.passthroughRoutes.values.any (fun row => refersToPool key row.pool)

def listenerRouted (tables : Tables) (key : String) : Bool :=
  tables.httpRoutes.values.any (fun row => decide (row.listener.key = key)) ||
    tables.passthroughRoutes.values.any (fun row => decide (row.listener.key = key))

def listenerBound (tables : Tables) (key : String) : Bool :=
  tables.sniBindings.values.any fun row => decide (row.listener.key = key)

def certificateReferenced (tables : Tables) (key : String) : Bool :=
  tables.listeners.values.any (fun row => decide (row.tlsDefaultCert = some key)) ||
    tables.sniBindings.values.any (fun row => decide (row.certificate = key))

def policyReferenced (tables : Tables) (key : String) : Bool :=
  tables.listeners.values.any fun row => decide (row.tlsPolicy = some key)

/-- A referenced row keeps the column that composite foreign keys hold. -/
def keepsReferences (constraint : String) (changed referenced : Bool) :
    Except StoreError Unit :=
  if changed && referenced then .error (referenceViolation constraint) else .ok ()

/-! ## Applying an operation -/

def putPool (tables : Tables) (pool : Pool) : Except StoreError Tables := do
  let row := poolRow pool
  enforce (poolChecks pool.key row)
  keepsReferences "listener_default_pool_fk"
    ((tables.pools.get? pool.key).any fun old =>
      decide (old.protocolClass ≠ row.protocolClass))
    (poolReferenced tables pool.key)
  return { tables with pools := tables.pools.set pool.key row }

def putBackend (tables : Tables) (backend : Backend) : Except StoreError Tables := do
  let _ ← poolRef tables backend.pool s!"backend '{backend.key}'"
  let row := backendRow backend
  enforce (backendChecks backend.key row)
  return { tables with backends := tables.backends.set backend.key row }

def putListener (tables : Tables) (listener : Listener) : Except StoreError Tables := do
  let row ← listenerRow tables listener
  enforce (listenerChecks listener.key row)
  keepsReferences "http_route_listener_fk"
    ((tables.listeners.get? listener.key).any fun old =>
      decide (old.protocol ≠ row.protocol))
    (listenerRouted tables listener.key || listenerBound tables listener.key)
  return { tables with listeners := tables.listeners.set listener.key row }

def putHttpRoute (tables : Tables) (route : HttpRoute) : Except StoreError Tables := do
  let row ← httpRouteRow tables route
  enforce (httpRouteChecks route.key row)
  return { tables with httpRoutes := tables.httpRoutes.set route.key row }

def putPassthroughRoute
    (tables : Tables) (route : PassthroughRoute) : Except StoreError Tables := do
  let row ← passthroughRouteRow tables route
  enforce (passthroughRouteChecks route.key row)
  return { tables with passthroughRoutes := tables.passthroughRoutes.set route.key row }

def putCertificate
    (tables : Tables) (certificate : Certificate) : Except StoreError Tables := do
  let row := certificateRow certificate
  enforce (certificateChecks certificate.key row)
  return { tables with certificates := tables.certificates.set certificate.key row }

def putTlsPolicy (tables : Tables) (policy : TlsPolicy) : Except StoreError Tables := do
  let row := tlsPolicyRow policy
  enforce (tlsPolicyChecks policy.key row)
  return { tables with tlsPolicies := tables.tlsPolicies.set policy.key row }

def putAddressSet (tables : Tables) (set : AddressSet) : Except StoreError Tables := do
  let row := addressSetRow set
  enforce (addressSetChecks set.key row)
  return { tables with addressSets := tables.addressSets.set set.key row }

def putEngine (tables : Tables) (settings : EngineSettings) : Except StoreError Tables := do
  enforce (engineChecks settings)
  return { tables with engine := some settings }

def putSniBinding
    (tables : Tables) (binding : SniCertificateBinding) : Except StoreError Tables := do
  let row ← sniBindingRow tables binding
  enforce (sniBindingChecks binding.key row)
  return { tables with sniBindings := tables.sniBindings.set binding.key row }

def putResource (tables : Tables) : Resource → Except StoreError Tables
  | .engine settings => putEngine tables settings
  | .pool pool => putPool tables pool
  | .backend backend => putBackend tables backend
  | .certificate certificate => putCertificate tables certificate
  | .tlsPolicy policy => putTlsPolicy tables policy
  | .addressSet set => putAddressSet tables set
  | .listener listener => putListener tables listener
  | .httpRoute route => putHttpRoute tables route
  | .passthroughRoute route => putPassthroughRoute tables route
  | .sniBinding binding => putSniBinding tables binding

def notFound (kind : ResourceKind) (key : String) : StoreError :=
  { status := 409
    code := "not_found"
    message := s!"{kind.text} '{key}' 가 없다" }

def present {α : Type}
    (table : OrderedMap String α) (kind : ResourceKind) (key : String) :
    Except StoreError Unit :=
  if (table.get? key).isSome then .ok () else .error (notFound kind key)

def unreferenced (constraint : String) (referenced : Bool) : Except StoreError Unit :=
  if referenced then .error (referenceViolation constraint) else .ok ()

/-- Deleting a pool takes its backends along, deleting a listener its
certificate bindings; every other reference forbids the deletion. -/
def deleteResource
    (tables : Tables) (kind : ResourceKind) (key : String) : Except StoreError Tables :=
  match kind with
  | .engine =>
      if tables.engine.isSome then
        .ok { tables with engine := none }
      else
        .error
          { status := 409
            code := "not_found"
            message := "엔진 설정이 없다" }
  | .pool => do
      present tables.pools .pool key
      unreferenced "listener_default_pool_fk" (poolReferenced tables key)
      return { tables with
        pools := tables.pools.erase key
        backends := tables.backends.filterValues fun row =>
          decide (row.pool ≠ key) }
  | .backend => do
      present tables.backends .backend key
      return { tables with backends := tables.backends.erase key }
  | .certificate => do
      present tables.certificates .certificate key
      unreferenced "listeners_tls_default_cert_id_fkey" (certificateReferenced tables key)
      return { tables with certificates := tables.certificates.erase key }
  | .tlsPolicy => do
      present tables.tlsPolicies .tlsPolicy key
      unreferenced "listeners_tls_policy_id_fkey" (policyReferenced tables key)
      return { tables with tlsPolicies := tables.tlsPolicies.erase key }
  | .addressSet => do
      present tables.addressSets .addressSet key
      return { tables with addressSets := tables.addressSets.erase key }
  | .listener => do
      present tables.listeners .listener key
      unreferenced "http_route_listener_fk" (listenerRouted tables key)
      return { tables with
        listeners := tables.listeners.erase key
        sniBindings := tables.sniBindings.filterValues fun row =>
          decide (row.listener.key ≠ key) }
  | .httpRoute => do
      present tables.httpRoutes .httpRoute key
      return { tables with httpRoutes := tables.httpRoutes.erase key }
  | .passthroughRoute => do
      present tables.passthroughRoutes .passthroughRoute key
      return { tables with passthroughRoutes := tables.passthroughRoutes.erase key }
  | .sniBinding => do
      present tables.sniBindings .sniBinding key
      return { tables with sniBindings := tables.sniBindings.erase key }

def applyOp (tables : Tables) : PatchOp → Except StoreError Tables
  | .put resource => putResource tables resource
  | .delete kind key => deleteResource tables kind key

def applyOps (tables : Tables) (ops : List PatchOp) : Except StoreError Tables :=
  ops.foldlM applyOp tables

end Store

end Barycenter
