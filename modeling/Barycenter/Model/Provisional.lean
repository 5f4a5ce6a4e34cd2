
/-!
# The configuration model

One value of `Model` is what an operator commits as a revision, what the
renderer turns into a server configuration, and what the slot computations
read.  Listeners and actions are discriminated unions: a field that a protocol
does not have cannot be written down.  A field that may be absent is an
`Option`, because the program distinguishes an absent key from a present one
that holds an empty value.
-/

namespace Barycenter

namespace Config

inductive ProtocolClass where
  | http
  | tcp
  | udp
deriving DecidableEq, Repr

inductive UdpPreset where
  | dns
  | wireguard
  | gameGeneric
  | custom
deriving DecidableEq, Repr

structure InboundProxyProtocol where
  trustedCidrs : List String
deriving DecidableEq, Repr

inductive RealIpHeaderName where
  | cfConnectingIp
  | xForwardedFor
  | xRealIp
deriving DecidableEq, Repr

structure InboundRealIpHeader where
  header : RealIpHeaderName
  trustedCidrs : List String
deriving DecidableEq, Repr

inductive TlsVersion where
  | tls12
  | tls13
deriving DecidableEq, Repr

inductive CipherPolicyRef where
  | modern2026
  | intermediate2026
deriving DecidableEq, Repr

structure AcmeIntent where
  account : String
  domains : List String
deriving DecidableEq, Repr

/-- The three parts of the material of a certificate are present together or
not at all, but the record carries them separately. -/
structure Certificate where
  key : String
  materialRef : Option String := none
  chainDigest : Option String := none
  keyDigest : Option String := none
  acme : Option AcmeIntent := none
deriving DecidableEq, Repr

inductive SniHostMismatch where
  | allow
  | reject421
deriving DecidableEq, Repr

structure HstsPolicy where
  maxAgeSeconds : Nat
  includeSubdomains : Option Bool := none
  preload : Option Bool := none
deriving DecidableEq, Repr

structure TlsPolicy where
  key : String
  minVersion : TlsVersion
  maxVersion : Option TlsVersion := none
  sniHostMismatch : Option SniHostMismatch := none
  cipherPolicy : Option CipherPolicyRef := none
  hsts : Option HstsPolicy := none
deriving DecidableEq, Repr

structure TlsOverride where
  minVersion : Option TlsVersion := none
  maxVersion : Option TlsVersion := none
deriving DecidableEq, Repr

structure SniCertificateBinding where
  key : String
  listener : String
  hosts : List String
  certificate : String
  override : Option TlsOverride := none
deriving DecidableEq, Repr

inductive SniOutcome where
  | reject
  | pool (key : String)
deriving DecidableEq, Repr

structure RateLimit where
  requestsPerSecond : Option Nat := none
  burst : Option Nat := none
  nodelay : Option Bool := none
  maxConnections : Option Nat := none
  zoneKb : Option Nat := none
deriving DecidableEq, Repr

structure HeaderRule where
  name : String
  value : String
deriving DecidableEq, Repr

structure HeaderRules where
  request : Option (List HeaderRule) := none
  response : Option (List HeaderRule) := none
deriving DecidableEq, Repr

structure ProxyLimits where
  connectTimeoutMs : Option Nat := none
  readTimeoutMs : Option Nat := none
  sendTimeoutMs : Option Nat := none
  clientMaxBodyBytes : Option Nat := none
deriving DecidableEq, Repr

structure HttpProfile where
  defaultAction : Option SniOutcome := none
  limits : Option ProxyLimits := none
  headers : Option HeaderRules := none
  rateLimit : Option RateLimit := none
  strictPriority : Option Bool := none
deriving DecidableEq, Repr

structure RawTlsBinding where
  policy : String
  defaultCertificate : String
deriving DecidableEq, Repr

structure HttpListener where
  acceptProxyProtocol : Option InboundProxyProtocol := none
  realIpFromHeader : Option InboundRealIpHeader := none
  http : Option HttpProfile := none
  hosts : Option (List String) := none
deriving DecidableEq, Repr

structure HttpsListener where
  acceptProxyProtocol : Option InboundProxyProtocol := none
  realIpFromHeader : Option InboundRealIpHeader := none
  http : Option HttpProfile := none
  hosts : Option (List String) := none
  tls : RawTlsBinding
  http2 : Option Bool := none
  httpRedirect : Option Nat := none
deriving DecidableEq, Repr

structure PassthroughListener where
  acceptProxyProtocol : Option InboundProxyProtocol := none
  onUnmatchedSni : Option SniOutcome := none
  onNoSni : Option SniOutcome := none
  prereadTimeoutS : Option Nat := none
deriving DecidableEq, Repr

structure TcpListener where
  defaultPool : String
  acceptProxyProtocol : Option InboundProxyProtocol := none
deriving DecidableEq, Repr

structure UdpListener where
  defaultPool : String
  preset : UdpPreset
deriving DecidableEq, Repr

inductive ListenerBody where
  | http (body : HttpListener)
  | https (body : HttpsListener)
  | tlsPassthrough (body : PassthroughListener)
  | tcp (body : TcpListener)
  | udp (body : UdpListener)
deriving DecidableEq, Repr

structure Listener where
  key : String
  bind : String
  port : Nat
  enabled : Bool
  sourceAllow : Option (List String) := none
  body : ListenerBody
deriving DecidableEq, Repr

inductive Algorithm where
  | roundRobin
  | sourceIpHash
  | hash
  | leastConn
deriving DecidableEq, Repr

inductive HealthCheckMode where
  | none
  | active
deriving DecidableEq, Repr

inductive HealthCheckProtocol where
  | tcpConnect
  | http
deriving DecidableEq, Repr

structure HealthCheck where
  mode : Option HealthCheckMode := none
  protocol : Option HealthCheckProtocol := none
  port : Option Nat := none
  hostOverride : Option String := none
  path : Option String := none
  expectStatus : Option (List Nat) := none
  expectBody : Option String := none
  hostHeader : Option String := none
  intervalS : Option Nat := none
  timeoutS : Option Nat := none
  rise : Option Nat := none
  fall : Option Nat := none
deriving DecidableEq, Repr

structure UpstreamTls where
  enabled : Bool
  sni : Option String := none
  verify : Option Bool := none
  caBundle : Option String := none
deriving DecidableEq, Repr

inductive DiscoverySourceKind where
  | dnsSrv
  | consul
  | kubernetes
  | file
deriving DecidableEq, Repr

inductive EmptyMeans where
  | keep
  | empty
deriving DecidableEq, Repr

structure PoolDiscovery where
  source : DiscoverySourceKind
  query : String
  port : Option Nat := none
  emptyMeans : Option EmptyMeans := none
deriving DecidableEq, Repr

/-- `sendProxyProtocol` has one possible value, so only its presence counts. -/
structure Pool where
  key : String
  protocolClass : ProtocolClass
  algorithm : Algorithm
  hashKey : Option String := none
  sendProxyProtocol : Option Unit := none
  healthCheck : Option HealthCheck := none
  upstreamTls : Option UpstreamTls := none
  discovery : Option PoolDiscovery := none
deriving DecidableEq, Repr

structure Backend where
  key : String
  pool : String
  host : String
  port : Nat
  weight : Nat
  softMaxConns : Option Nat := none
  isBackup : Option Bool := none
deriving DecidableEq, Repr

inductive HttpAction where
  | proxy (pool : String) (websocket : Bool)
      (requestHeaders : Option (List HeaderRule)) (rewritePrefix : Option String)
  | redirect (location : String) (status : Nat)
  | reject (status : Nat)
deriving DecidableEq, Repr

inductive SourceAddress where
  | visitor
  | connection
deriving DecidableEq, Repr

structure HttpSourceRule where
  sources : List String
  action : HttpAction
  address : Option SourceAddress := none
deriving DecidableEq, Repr

structure HttpRoute where
  key : String
  listener : String
  hosts : List String
  priority : Nat
  pathPrefix : Option String := none
  pathPrefixes : Option (List String) := none
  action : HttpAction
  sourceRules : Option (List HttpSourceRule) := none
deriving DecidableEq, Repr

inductive PassthroughAction where
  | proxy (pool : String)
  | reject
deriving DecidableEq, Repr

structure PassthroughRoute where
  key : String
  listener : String
  snis : List String
  priority : Nat
  action : PassthroughAction
deriving DecidableEq, Repr

structure EngineSettings where
  workerShutdownTimeoutS : Option Nat := none
  membershipDictKb : Option Nat := none
  acmeDictKb : Option Nat := none
deriving DecidableEq, Repr

inductive AddressSourceKind where
  | cloudflare
  | aws
  | gcp
  | fastly
  | url
deriving DecidableEq, Repr

inductive AddressFamily where
  | ipv4
  | ipv6
deriving DecidableEq, Repr

structure AddressSourceOptions where
  family : Option AddressFamily := none
  services : Option (List String) := none
  regions : Option (List String) := none
  url : Option String := none
  jsonPath : Option String := none
deriving DecidableEq, Repr

structure AddressSet where
  key : String
  cidrs : List String
  source : Option AddressSourceKind := none
  sourceOptions : Option AddressSourceOptions := none
deriving DecidableEq, Repr

structure Model where
  engine : Option EngineSettings := none
  listeners : List Listener := []
  httpRoutes : List HttpRoute := []
  passthroughRoutes : List PassthroughRoute := []
  pools : List Pool := []
  backends : List Backend := []
  certificates : List Certificate := []
  tlsPolicies : List TlsPolicy := []
  sniBindings : List SniCertificateBinding := []
  addressSets : Option (List AddressSet) := none
deriving DecidableEq, Repr

end Config

end Barycenter
