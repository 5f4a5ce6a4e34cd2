import Barycenter.Store.Patch

/-!
# Reading the model back from the tables

Every table is read in the order of its keys.  A resource is put together from
the columns of its row: a column that holds nothing leaves its field out, and a
listener or a route gets the fields of its protocol or of its action only.
The operations that rebuild a model put what is referred to before what refers
to it.
-/

namespace Barycenter

namespace Store

open Config

structure Collation where
  le : String → String → Bool
  total : ∀ left right, le left right || le right left
  trans : ∀ left middle right,
    le left middle = true → le middle right = true → le left right = true
  antisymm : ∀ left right, le left right = true → le right left = true → left = right

def characterOrder : Collation :=
  { le := fun left right => decide (left ≤ right)
    total := fun left right => by
      simpa using String.le_total left right
    trans := fun left middle right first second => by
      simp only [decide_eq_true_eq] at first second ⊢
      exact String.le_trans first second
    antisymm := fun left right forth back => by
      simp only [decide_eq_true_eq] at forth back
      exact String.le_antisymm forth back }

def Collation.inOrder {α : Type} (collation : Collation) (table : OrderedMap String α) :
    List (String × α) :=
  table.entries.mergeSort fun left right => collation.le left.1 right.1

/-! ## Resources from rows -/

def poolOf (key : String) (row : PoolRow) : Pool :=
  { key := key
    protocolClass := row.protocolClass
    algorithm := row.algorithm
    hashKey := row.hashKey
    sendProxyProtocol := row.sendProxyProtocol
    healthCheck := row.healthCheck
    upstreamTls := row.upstreamTls
    discovery := row.discovery }

def backendOf (key : String) (row : BackendRow) : Backend :=
  { key := key
    pool := row.pool
    host := row.host
    port := row.port
    weight := row.weight }

def listColumn {α : Type} (column : Option (List α)) : Option (List α) :=
  column.filter fun items => !items.isEmpty

def acceptOf (row : ListenerRow) : Option InboundProxyProtocol :=
  (listColumn row.acceptProxyCidrs).map InboundProxyProtocol.mk

def realIpOf (row : ListenerRow) : Option InboundRealIpHeader :=
  match row.realIpHeader, listColumn row.realIpHeaderCidrs with
  | some header, some cidrs => some { header := header, trustedCidrs := cidrs }
  | _, _ => none

def outcomeOf (pool : Option PoolRef) (reject : Option Bool) : Option SniOutcome :=
  match pool with
  | some ref => some (.pool ref.key)
  | none => if reject = some true then some .reject else none

def httpProfileOf (row : ListenerRow) : Option HttpProfile :=
  let profile : HttpProfile :=
    { defaultAction := outcomeOf row.httpDefaultPool row.httpDefaultReject
      limits := row.proxyLimits
      headers := row.headerRules
      rateLimit := row.rateLimit
      strictPriority := if row.httpStrictPriority = some true then some true else none }
  if profile = {} then none else some profile

def listenerBodyOf (row : ListenerRow) : ListenerBody :=
  match row.protocol with
  | .http =>
      .http
        { acceptProxyProtocol := acceptOf row
          realIpFromHeader := realIpOf row
          http := httpProfileOf row
          hosts := listColumn row.hosts }
  | .https =>
      .https
        { acceptProxyProtocol := acceptOf row
          realIpFromHeader := realIpOf row
          http := httpProfileOf row
          hosts := listColumn row.hosts
          tls :=
            { policy := row.tlsPolicy.getD "null"
              defaultCertificate := row.tlsDefaultCert.getD "null" }
          http2 := row.http2
          httpRedirect := row.httpRedirectPort }
  | .tlsPassthrough =>
      .tlsPassthrough
        { acceptProxyProtocol := acceptOf row
          onUnmatchedSni := outcomeOf row.onUnmatchedSniPool row.onUnmatchedSniReject
          onNoSni := outcomeOf row.onNoSniPool row.onNoSniReject
          prereadTimeoutS := row.prereadTimeoutS }
  | .udp =>
      .udp
        { defaultPool := (row.defaultPool.map PoolRef.key).getD "null"
          preset := row.udpPreset.getD .dns }
  | .tcp =>
      .tcp
        { defaultPool := (row.defaultPool.map PoolRef.key).getD "null"
          acceptProxyProtocol := acceptOf row }

def listenerOf (key : String) (row : ListenerRow) : Listener :=
  { key := key
    bind := row.bind
    port := row.port
    enabled := row.enabled
    sourceAllow := listColumn row.sourceAllow
    body := listenerBodyOf row }

def httpActionOf (row : HttpRouteRow) : HttpAction :=
  match row.actionKind with
  | .proxy =>
      .proxy ((row.pool.map PoolRef.key).getD "null") (decide (row.websocket = some true))
        (listColumn row.requestHeaders) row.rewritePrefix
  | .redirect => .redirect (row.redirectTo.getD "null") (row.status.getD 0)
  | .reject => .reject (row.status.getD 0)

def httpRouteOf (key : String) (row : HttpRouteRow) : HttpRoute :=
  { key := key
    listener := row.listener.key
    hosts := row.hosts
    priority := row.priority
    pathPrefix := row.pathPrefix
    pathPrefixes := row.pathPrefixes
    action := httpActionOf row
    sourceRules := row.sourceRules }

def passthroughRouteOf (key : String) (row : PassthroughRouteRow) : PassthroughRoute :=
  { key := key
    listener := row.listener.key
    snis := row.snis
    priority := row.priority
    action :=
      if row.actionKind = .proxy then .proxy ((row.pool.map PoolRef.key).getD "null")
      else .reject }

def certificateOf (key : String) (row : CertificateRow) : Certificate :=
  { key := key
    materialRef := row.materialRef
    chainDigest := row.materialRef.map fun _ => row.chainDigest.getD "null"
    keyDigest := row.materialRef.map fun _ => row.keyDigest.getD "null"
    acme := row.acmeAccount.map fun account =>
      { account := account
        domains := row.acmeDomains.getD [] } }

def tlsPolicyOf (key : String) (row : TlsPolicyRow) : TlsPolicy :=
  { key := key
    minVersion := row.minVersion
    maxVersion := row.maxVersion
    sniHostMismatch := row.sniHostMismatch
    cipherPolicy := row.cipherPolicy
    hsts := row.hsts }

def sniBindingOf (key : String) (row : SniBindingRow) : SniCertificateBinding :=
  { key := key
    listener := row.listener.key
    certificate := row.certificate
    hosts := row.hosts
    override :=
      if row.ovrMinVersion.isSome || row.ovrMaxVersion.isSome then
        some { minVersion := row.ovrMinVersion, maxVersion := row.ovrMaxVersion }
      else none }

def addressSetOf (key : String) (row : AddressSetRow) : AddressSet :=
  { key := key
    cidrs := row.cidrs
    source := row.source
    sourceOptions := row.sourceOptions }

/-! ## The whole model -/

section Whole

variable (collation : Collation)

def resourcesOf {α β : Type}
    (resourceOf : String → α → β) (table : OrderedMap String α) : List β :=
  (collation.inOrder table).map fun entry => resourceOf entry.1 entry.2

def readAddressSets (tables : Tables) : Option (List AddressSet) :=
  match resourcesOf collation addressSetOf tables.addressSets with
  | [] => none
  | sets => some sets

def readModel (tables : Tables) : Model :=
  { engine := tables.engine
    listeners := resourcesOf collation listenerOf tables.listeners
    httpRoutes := resourcesOf collation httpRouteOf tables.httpRoutes
    passthroughRoutes :=
      resourcesOf collation passthroughRouteOf tables.passthroughRoutes
    pools := resourcesOf collation poolOf tables.pools
    backends :=
      resourcesOf collation backendOf (tables.backends.filterValues BackendRow.enabled)
    certificates := resourcesOf collation certificateOf tables.certificates
    tlsPolicies := resourcesOf collation tlsPolicyOf tables.tlsPolicies
    sniBindings := resourcesOf collation sniBindingOf tables.sniBindings
    addressSets := readAddressSets collation tables }

end Whole

def opsOf (model : Model) : List PatchOp :=
  (model.engine.toList.map fun settings => .put (.engine settings)) ++
  (model.pools.map fun pool => .put (.pool pool)) ++
  (model.backends.map fun backend => .put (.backend backend)) ++
  (model.certificates.map fun certificate => .put (.certificate certificate)) ++
  (model.tlsPolicies.map fun policy => .put (.tlsPolicy policy)) ++
  ((model.addressSets.getD []).map fun set => .put (.addressSet set)) ++
  (model.listeners.map fun listener => .put (.listener listener)) ++
  (model.httpRoutes.map fun route => .put (.httpRoute route)) ++
  (model.passthroughRoutes.map fun route => .put (.passthroughRoute route)) ++
  (model.sniBindings.map fun binding => .put (.sniBinding binding))

end Store

end Barycenter
