import Barycenter.Model.Derived
import Barycenter.Route.StrictPriority
import Barycenter.Validate.Sockets
import Barycenter.Validate.Strings

/-!
# The validation of a model

The validator collects everything that is wrong with a model, and a model with
issues is neither stored nor rendered.  It asks that references lead somewhere,
that sockets and hosts are not contended for, that options have a meaning where
they stand, and that the routes of every listener compile.

The type of a listener already excludes an option that its protocol does not
have and a default pool that is missing, so these checks have no counterpart
here.
-/

namespace Barycenter

namespace Validate

open Config
open Store (ListenerProtocol protocolOf)
open Route (HostPattern parseHostPattern RouteInput compileHostRoutes StrictHost
  planStrictPriority)

inductive ModelIssueCode where
  | unknownAddressSet
  | sourceRuleShadowed
  | invalidBindAddress
  | unknownPool
  | unknownListener
  | poolHasNoBackend
  | socketConflict
  | routeCompileError
  | invalidHashKey
  | poolProtocolMismatch
  | routeProtocolMismatch
  | orphanBackend
  | optionNotSupported
  | unknownTlsReference
  | sniBindingProtocolMismatch
  | sniBindingMissing
  | strictPriorityTooMany
  | sniBindingConflict
  | invalidSniHost
  | acmePathReserved
  | certificateHasNoMaterial
  | invalidAcmeIntent
  | invalidHsts
  | hostConflict
  | routeHostOutsideListener
  | invalidEnum
  | missingField
  | outOfRange
  | invalidValue
  | duplicate
  deriving DecidableEq, Repr

structure ModelIssue where
  code : ModelIssueCode
  subjects : List String
  message : String
  deriving DecidableEq, Repr

/-- What the checks of a model and its rendering take from the runtime. -/
structure Runtime where
  hosts : Route.Platform
  binds : Platform
  /-- Does the URL parser read the text as a URL of the scheme `https`? -/
  isHttpsUrl : String → Bool

/-- A runtime for names in lower case and canonical addresses. -/
def plainRuntime : Runtime :=
  ⟨Route.plainPlatform, plainPlatform, fun url => "https://".toList.isPrefixOf url.toList⟩

structure ValidationCapabilities where
  streamRealip : Bool
  http2 : Option Bool := none
  sslRejectHandshake : Option Bool := none
  deriving DecidableEq, Repr

/-- `STRICT_PRIORITY_MAX_LOWERED` -/
def strictPriorityMaxLowered : Nat := 128

/-- `ACME_PREFIX` -/
def acmePath : String := "/.well-known/acme-challenge/"

def protocolName : ListenerProtocol → String
  | .http => "http"
  | .https => "https"
  | .tlsPassthrough => "tls_passthrough"
  | .tcp => "tcp"
  | .udp => "udp"

def algorithmName : Algorithm → String
  | .roundRobin => "round_robin"
  | .sourceIpHash => "source_ip_hash"
  | .hash => "hash"
  | .leastConn => "least_conn"

/-- Entries under each key, the keys in the order of their first entries. -/
def groupsOf {κ α : Type} [DecidableEq κ] (entries : List (κ × α)) : List (κ × List α) :=
  (entries.map Prod.fst).eraseDups.map fun key =>
    (key, (entries.filter fun entry => entry.1 = key).map Prod.snd)

section Checks

variable (runtime : Runtime) (caps : ValidationCapabilities) (model : Model)

/-! ## References -/

def poolOf (key : String) : Option Pool := lastWith Pool.key model.pools key

def listenerOf (key : String) : Option Listener := lastWith Listener.key model.listeners key

def hasBackends (key : String) : Bool := model.backends.any fun backend => backend.pool = key

def hasCertificate (key : String) : Bool :=
  model.certificates.any fun certificate => certificate.key = key

def needPool (subject poolKey : String) (expect : ProtocolClass) : List ModelIssue :=
  match poolOf model poolKey with
  | none => [⟨.unknownPool, [subject], s!"'{subject}' 가 존재하지 않는 풀 '{poolKey}' 를 참조한다"⟩]
  | some pool =>
      (if hasBackends model poolKey then []
        else [⟨.poolHasNoBackend, [subject, poolKey],
          s!"풀 '{poolKey}' 에 백엔드가 없다. 렌더에서 조용히 사라지는 대신 저장을 막는다"⟩]) ++
      if pool.protocolClass = expect then []
      else [⟨.poolProtocolMismatch, [subject, poolKey],
        s!"'{subject}' 는 {protocolClassName expect} 인데 풀 '{poolKey}' 는 " ++
          s!"{protocolClassName pool.protocolClass} 다. " ++
          "서브시스템이 다르면 렌더된 upstream 이름이 잡히지 않는다"⟩]

def needOutcome (subject : String) (outcome : Option SniOutcome) (expect : ProtocolClass) :
    List ModelIssue :=
  match outcome with
  | some (.pool key) => needPool model subject key expect
  | some .reject | none => []

def needActionPool (subject : String) : HttpAction → List ModelIssue
  | .proxy pool _ _ _ => needPool model subject pool .http
  | .redirect _ _ | .reject _ => []

/-! ## Backends and pools -/

def backendIssues (backend : Backend) : List ModelIssue :=
  if (poolOf model backend.pool).isSome then []
  else [⟨.orphanBackend, [backend.key, backend.pool],
    s!"백엔드 '{backend.key}' 가 존재하지 않는 풀 '{backend.pool}' 에 속해 있다"⟩]

def backupsOf (pool : Pool) : List String :=
  (model.backends.filter fun backend =>
    backend.pool = pool.key && backend.isBackup = some true).map Backend.key

def hashes (algorithm : Algorithm) : Bool := algorithm = .hash || algorithm = .sourceIpHash

def poolIssues (pool : Pool) : List ModelIssue :=
  (if pool.sendProxyProtocol.isSome && pool.protocolClass ≠ .tcp then
      [⟨.optionNotSupported, [pool.key],
        s!"풀 '{pool.key}' 는 {protocolClassName pool.protocolClass} 인데 sendProxyProtocol 이 켜져 있다. " ++
          "PROXY 송신은 tcp 에만 있다 (§4.7)"⟩]
    else []) ++
  (if pool.healthCheck.isSome && pool.protocolClass ≠ .http then
      [⟨.optionNotSupported, [pool.key],
        s!"풀 '{pool.key}' 는 {protocolClassName pool.protocolClass} 인데 healthCheck 가 있다. " ++
          "HTTP 헬스체크는 http 풀에만 있다 — stream 프로버는 연결만 본다"⟩]
    else []) ++
  (match pool.healthCheck.bind HealthCheck.path with
    | none => []
    | some path =>
        match validatePathPrefix path with
        | .ok _ => []
        | .error message =>
            [⟨.optionNotSupported, [pool.key],
              s!"풀 '{pool.key}' 의 healthCheck.path: {message}"⟩]) ++
  (if hashes pool.algorithm && 0 < (backupsOf model pool).length then
      [⟨.optionNotSupported, pool.key :: backupsOf model pool,
        s!"풀 '{pool.key}' 은 {algorithmName pool.algorithm} 이라 isBackup 백엔드를 못 둔다 (" ++
          ", ".intercalate (backupsOf model pool) ++
          ") — 해시 링과 backup 의 의미가 충돌한다 (§4.3.1)"⟩]
    else []) ++
  if pool.algorithm ≠ .hash then []
  else
    match parseHashKey pool.protocolClass (pool.hashKey.getD "remote_addr") with
    | .ok _ => []
    | .error message => [⟨.invalidHashKey, [pool.key], message⟩]

/-! ## Listeners -/

def hasAddressSet (key : String) : Bool :=
  (model.addressSets.getD []).any fun set => set.key = key

def listenerSetIssues (listener : Listener) : List ModelIssue :=
  ((referencedSets listener).filter fun ref => !hasAddressSet model ref).map fun ref =>
    ⟨.unknownAddressSet, [listener.key, ref],
      s!"리스너 '{listener.key}' 가 없는 주소 집합 '@{ref}' 를 참조한다"⟩

def isStreamTcp (protocol : ListenerProtocol) : Bool :=
  protocol = .tcp || protocol = .tlsPassthrough

def listenerIssues (listener : Listener) : List ModelIssue :=
  let protocol := protocolOf listener.body
  (if hasBind runtime.binds listener then []
    else [⟨.invalidBindAddress, [listener.key],
      s!"리스너 '{listener.key}' 의 bind 가 IP 주소가 아니다: " ++ JsonText.quoted listener.bind⟩]) ++
  (if listener.sourceAllow.isSome && listener.acceptProxyProtocol.isSome &&
      isStreamTcp protocol then
      [⟨.optionNotSupported, [listener.key],
        s!"{protocolName protocol} 리스너 '{listener.key}' 에 sourceAllow 와 acceptProxyProtocol 을 같이 적었다. " ++
          "stream 에서는 PROXY 헤더가 주소를 바꾼 뒤에 검사하므로 앞단 대역이 아니라 원본 " ++
          "클라이언트를 보게 된다. 앞단만 받으려면 acceptProxyProtocol.trustedCidrs 가 이미 그 " ++
          "경계이고, 출발지 제한은 방화벽에서 건다."⟩]
    else []) ++
  (if listener.acceptProxyProtocol.isSome && listener.realIpFromHeader.isSome then
      [⟨.optionNotSupported, [listener.key],
        s!"리스너 '{listener.key}' 에 acceptProxyProtocol 과 realIpFromHeader 를 같이 적었다. " ++
          "원본 IP 의 출처는 하나만 고른다 — PROXY 헤더를 받는 앞단이면 acceptProxyProtocol, " ++
          "HTTP 헤더(CF-Connecting-IP 등)로 넘기는 앞단이면 realIpFromHeader."⟩]
    else []) ++
  match listener.body with
  | .http body => needOutcome model listener.key (body.http.bind HttpProfile.defaultAction) .http
  | .https body =>
      (if body.http2 = some true && caps.http2 ≠ some true then
          [⟨.optionNotSupported, [listener.key],
            s!"리스너 '{listener.key}' 가 http2 를 요구하는데 엔진이 못 낸다 — " ++
              "ngx_http_v2_module 과 nginx 1.25.1+ 가 함께 필요하다 (§4.9 · §7.6)"⟩]
        else []) ++
      needOutcome model listener.key (body.http.bind HttpProfile.defaultAction) .http
  | .tlsPassthrough body =>
      needOutcome model listener.key body.onUnmatchedSni .tcp ++
        needOutcome model listener.key body.onNoSni .tcp
  | .tcp body => needPool model listener.key body.defaultPool .tcp
  | .udp body => needPool model listener.key body.defaultPool .udp

/-! ## Sockets -/

/-- Listeners with the same key have the same `listen`. -/
structure SocketKey where
  protocol : ListenerProtocol
  family : Family
  /-- None for the wildcard address. -/
  addr : Option String
  port : Nat
  deriving DecidableEq, Repr

def socketKeyOf (listener : Listener) : Option SocketKey :=
  match normalizeBind runtime.binds listener.bind with
  | .ok bind =>
      some ⟨protocolOf listener.body, bind.family,
        if bind.wildcard then none else some bind.addr, listener.port⟩
  | .error _ => none

/-- The address and the port of the socket of a listener. -/
def placeOf (listener : Listener) : Option SocketKey :=
  (socketKeyOf runtime listener).map fun key => { key with protocol := .http }

/-- An error may say why two listeners cannot share a socket. -/
def socketSharing (left right : Listener) : Except (Option String) Unit :=
  if !left.isHttp || !right.isHttp then .error none
  else if left.hosts.isNone && right.hosts.isNone then .error none
  else if (placeOf runtime left).isNone || placeOf runtime left ≠ placeOf runtime right then
    .error (some "호스트 리스너가 소켓을 함께 쓰려면 바인드가 같아야 한다")
  else if protocolOf left.body ≠ protocolOf right.body then
    .error (some "한 포트에 평문(http)과 TLS(https)를 섞을 수 없다")
  else if left.acceptProxyProtocol.isNone ≠ right.acceptProxyProtocol.isNone then
    .error (some ("PROXY protocol 수신은 소켓 단위다 — " ++
      "같은 소켓의 리스너는 모두 켜거나 모두 꺼야 한다"))
  else .ok ()

/-- The plain sockets of the redirects that are opened. -/
def redirects : List Listener :=
  (model.listeners.filter fun listener =>
    listener.enabled && hasBind runtime.binds listener).filterMap redirectListenerOf

def conflictIssues : List ModelIssue :=
  let socketListener := lastWith Listener.key (model.listeners ++ redirects runtime model)
  (findSocketConflicts runtime.binds (reservationsOf runtime.binds model.listeners)).filterMap
    fun conflict =>
      match socketListener conflict.a, socketListener conflict.b with
      | some left, some right =>
          match socketSharing runtime left right with
          | .ok () => none
          | .error none => some ⟨.socketConflict, [conflict.a, conflict.b], conflict.reason⟩
          | .error (some why) =>
              some ⟨.socketConflict, [conflict.a, conflict.b], conflict.reason ++ " — " ++ why⟩
      | _, _ => some ⟨.socketConflict, [conflict.a, conflict.b], conflict.reason⟩

/-! ## Host listeners -/

def hostShapeIssues (listener : Listener) : List String → List String → List ModelIssue
  | _, [] => []
  | seen, host :: rest =>
      (match parseHostPattern runtime.hosts host with
        | .ok _ => []
        | .error _ =>
            [⟨.invalidValue, [listener.key],
              s!"리스너 '{listener.key}' 의 호스트가 이름 모양이 아니다: " ++ JsonText.quoted host ++
                " — 예: app.example.com · *.example.com"⟩]) ++
      (if runtime.hosts.lowercase host ∈ seen then
          [⟨.duplicate, [listener.key],
            s!"리스너 '{listener.key}' 에 호스트 '{host}' 가 두 번 있다"⟩]
        else []) ++
      hostShapeIssues listener (runtime.hosts.lowercase host :: seen) rest

def routeHostIssues (route : HttpRoute) : List ModelIssue :=
  match model.listeners.find? fun listener => listener.key = route.listener with
  | none => []
  | some listener =>
      match listener.hosts with
      | none => []
      | some hosts =>
          (route.hosts.filter fun host =>
            runtime.hosts.lowercase host ∉ hosts.map runtime.hosts.lowercase).map fun host =>
            ⟨.routeHostOutsideListener, [route.key, listener.key],
              s!"라우트 '{route.key}' 의 호스트 '{host}' 가 리스너 '{listener.key}' 의 호스트(" ++
                ", ".intercalate hosts ++ ") 밖이다"⟩

def claimedHosts (listener : Listener) : List String :=
  match listener.hosts with
  | some hosts => hosts
  | none =>
      (model.httpRoutes.filter fun route => route.listener = listener.key).flatMap HttpRoute.hosts

def claimIssues (place : String) :
    List (String × String) → List (String × String) → List ModelIssue
  | _, [] => []
  | owner, (host, listener) :: rest =>
      match owner.lookup (runtime.hosts.lowercase host) with
      | none => claimIssues place ((runtime.hosts.lowercase host, listener) :: owner) rest
      | some previous =>
          if previous = listener then claimIssues place owner rest
          else
            ⟨.hostConflict, [previous, listener],
              s!"같은 소켓({place})에서 호스트 '{host}' 를 리스너 '{previous}' 와 '{listener}' 가 " ++
                "함께 받는다 — 먼저 나온 server 가 이긴다"⟩ :: claimIssues place owner rest

def inKeyOrder {α : Type} (keyOf : α → String) (items : List α) : List α :=
  items.insertionSort fun left right => !(Text.before (keyOf right) (keyOf left))

def socketIssues (group : List Listener) : List ModelIssue :=
  match group with
  | [] => []
  | first :: _ =>
      if !group.any fun listener => listener.hosts.isSome then []
      else
        let place := first.bind ++ ":" ++ toString first.port
        claimIssues runtime place [] ((inKeyOrder Listener.key group).flatMap fun listener =>
            (claimedHosts model listener).map fun host => (host, listener.key)) ++
          if first.isHttps && !(group.any fun listener => listener.hosts.isNone) &&
              caps.sslRejectHandshake ≠ some true then
            [⟨.optionNotSupported, group.map Listener.key,
              s!"호스트 리스너만 있는 HTTPS 소켓({place})은 모르는 SNI 를 인증서 없이 끊어야 한다" ++
                "(ssl_reject_handshake, nginx 1.19.4+). 이 엔진은 못 한다 — " ++
                "그 소켓에 호스트 없는 리스너를 하나 둔다"⟩]
          else []

/-- The enabled http and https listeners and redirects, under their sockets. -/
def socketGroups : List (SocketKey × List Listener) :=
  groupsOf ((((model.listeners ++ redirects runtime model).filter fun listener =>
    listener.enabled && listener.isHttp).filterMap fun listener =>
      (socketKeyOf runtime listener).map fun key => (key, listener)))

def vhostIssues : List ModelIssue :=
  (model.listeners.flatMap fun listener =>
      hostShapeIssues runtime listener [] (listener.hosts.getD [])) ++
    model.httpRoutes.flatMap (routeHostIssues runtime model) ++
    (socketGroups runtime model).flatMap fun group => socketIssues runtime caps model group.2

/-! ## Stream listeners that accept the PROXY protocol -/

def streamRealipIssues (listener : Listener) : List ModelIssue :=
  if listener.enabled && isStreamTcp (protocolOf listener.body) &&
      listener.acceptProxyProtocol.isSome && !caps.streamRealip then
    [⟨.optionNotSupported, [listener.key],
      s!"리스너 '{listener.key}' 가 stream 에서 PROXY 를 받으려 하는데 엔진에 stream_realip 이 없다. " ++
        "그러면 신뢰 경계를 걸 수 없고, 걸지 못한 채로 받으면 클라이언트가 자기 IP 를 정한다. " ++
        "stream_realip 이 있는 엔진을 쓰거나 이 리스너에서 PROXY 수신을 끈다."⟩]
  else []

/-! ## Routes -/

def protocolMismatch (listenerKey : String) (wanted : List ListenerProtocol) :
    Option ListenerProtocol :=
  (listenerOf model listenerKey).bind fun listener =>
    if protocolOf listener.body ∈ wanted then none else some (protocolOf listener.body)

def wantProtocol (routeKey listenerKey : String) (wanted : List ListenerProtocol) :
    List ModelIssue :=
  match protocolMismatch model listenerKey wanted with
  | none => []
  | some actual =>
      [⟨.routeProtocolMismatch, [routeKey, listenerKey],
        s!"라우트 '{routeKey}' 는 " ++ "/".intercalate (wanted.map protocolName) ++
          s!" 용인데 리스너 '{listenerKey}' 는 {protocolName actual} 다. " ++
          "렌더 결과에서 이 라우트는 사라진다"⟩]

def httpInputs (route : HttpRoute) : List RouteInput :=
  let paths := routePaths route
  route.hosts.zipIdx.flatMap fun (host, hostIndex) =>
    paths.zipIdx.map fun (_, pathIndex) =>
      { key :=
          if 1 < paths.length then
            route.key ++ "#" ++ toString hostIndex ++ "." ++ toString pathIndex
          else route.key ++ "#" ++ toString hostIndex
        host := host
        priority := route.priority
        pathPrefix := route.pathPrefix.or (route.pathPrefixes.bind (·[pathIndex]?)) }

def passthroughInputs (route : PassthroughRoute) : List RouteInput :=
  route.snis.zipIdx.map fun (sni, index) =>
    { key := route.key ++ "#" ++ toString index
      host := sni
      priority := route.priority
      pathPrefix := none }

def httpProtocols : List ListenerProtocol := [.http, .https]

def addRouteIssues (listenerKey : String) (inputs : List RouteInput) : List ModelIssue :=
  if (listenerOf model listenerKey).isSome then []
  else inputs.map fun input =>
    ⟨.unknownListener, [input.key],
      s!"라우트 '{input.key}' 가 존재하지 않는 리스너 '{listenerKey}' 를 참조한다"⟩

def httpRouteIssues (route : HttpRoute) : List ModelIssue :=
  (routeActions route).flatMap (needActionPool model route.key) ++
    wantProtocol model route.key route.listener httpProtocols ++
    if (protocolMismatch model route.listener httpProtocols).isSome then []
    else addRouteIssues model route.listener (httpInputs route)

def passthroughRouteIssues (route : PassthroughRoute) : List ModelIssue :=
  (match route.action with
    | .proxy pool => needPool model route.key pool .tcp
    | .reject => []) ++
    wantProtocol model route.key route.listener [.tlsPassthrough] ++
    if (protocolMismatch model route.listener [.tlsPassthrough]).isSome then []
    else addRouteIssues model route.listener (passthroughInputs route)

/-- The inputs of the listeners, in the order in which they are added. -/
def addedRoutes : List (String × RouteInput) :=
  (model.httpRoutes.flatMap fun route =>
      if (protocolMismatch model route.listener httpProtocols).isSome ||
          (listenerOf model route.listener).isNone then []
      else (httpInputs route).map fun input => (route.listener, input)) ++
    model.passthroughRoutes.flatMap fun route =>
      if (protocolMismatch model route.listener [.tlsPassthrough]).isSome ||
          (listenerOf model route.listener).isNone then []
      else (passthroughInputs route).map fun input => (route.listener, input)

def compileIssues : List ModelIssue :=
  (groupsOf (addedRoutes model)).flatMap fun (listener, inputs) =>
    (compileHostRoutes runtime.hosts inputs).errors.map fun refused =>
      ⟨.routeCompileError, [listener, refused.route],
        s!"리스너 '{listener}': {refused.message}"⟩

/-! ## Source rules -/

def routeSetIssues (route : HttpRoute) : List ModelIssue :=
  ((referencedSetsOfRoute route).filter fun ref => !hasAddressSet model ref).map fun ref =>
    ⟨.unknownAddressSet, [route.key, ref],
      s!"라우트 '{route.key}' 의 출발지 규칙이 없는 주소 집합 '@{ref}' 를 참조한다"⟩

structure SeenRange where
  cidr : String
  rule : Nat
  address : SourceAddress
  deriving DecidableEq, Repr

def shadowIssues (routeKey : String) :
    Nat → List SeenRange → List HttpSourceRule → List ModelIssue
  | _, _, [] => []
  | index, seen, rule :: rest =>
      let sources := expandList (rangesOf model) rule.sources
      let address := rule.address.getD .visitor
      (sources.filterMap fun cidr =>
          (seen.find? fun range => range.address = address && cidrCovers range.cidr cidr).map
            fun range =>
              ⟨.sourceRuleShadowed, [routeKey],
                s!"라우트 '{routeKey}' 의 출발지 규칙 {toString (index + 1)} 의 {cidr} 는 규칙 " ++
                  s!"{toString (range.rule + 1)} 의 {range.cidr} 안에 든다 — " ++
                  "위 규칙이 먼저 맞으므로 이 대역은 결코 여기로 오지 않는다. 좁은 대역을 위로 올려라"⟩) ++
        shadowIssues routeKey (index + 1)
          (seen ++ sources.map fun cidr => ⟨cidr, index, address⟩) rest

/-! ## Reserved paths and strict priority -/

def acmePathIssues (route : HttpRoute) : List ModelIssue :=
  ((routePaths route).filter fun path => acmePath.toList.isPrefixOf path.toList).map fun path =>
    ⟨.acmePathReserved, [route.key],
      s!"라우트 '{route.key}' 의 경로 '{path}' 는 ACME http-01 예약 경로다. " ++
        "여기를 가로채면 인증서 발급이 조용히 실패한다 (§8.2)"⟩

/-- The priorities of hosts on listeners in strict mode. -/
def strictInputs : List (String × String × Nat) :=
  model.httpRoutes.flatMap fun route =>
    if ((listenerOf model route.listener).bind Listener.http).bind HttpProfile.strictPriority =
        some true then
      route.hosts.map fun host => (route.listener, host, route.priority)
    else []

def strictHosts (priorities : List (String × Nat)) : List StrictHost :=
  (groupsOf priorities).filterMap fun (host, numbers) =>
    match parseHostPattern runtime.hosts host with
    | .ok pattern => some ⟨host, pattern, numbers.foldl max 0⟩
    | .error _ => none

def strictIssues : List ModelIssue :=
  (groupsOf (strictInputs model)).flatMap fun (key, priorities) =>
    let lowered := (planStrictPriority (strictHosts runtime priorities)).lowered.length
    if strictPriorityMaxLowered < lowered then
      [⟨.strictPriorityTooMany, [key],
        s!"리스너 '{key}' 의 strict_priority 가 호스트 {toString lowered}개를 정규식으로 " ++
          s!"내린다. 상한은 {toString strictPriorityMaxLowered}개다 — 정규식은 순차 평가라 " ++
          "강등 하나마다 요청당 비용이 붙고, 실측으로 250개에서 +9.8% 다 (§7.5-4 · S10). " ++
          "겹치는 호스트를 줄이거나 priority 역전을 없앤다."⟩]
    else []

/-! ## TLS -/

def isPassthroughPool (key : String) : Bool :=
  model.passthroughRoutes.any fun route => route.action = .proxy key

def upstreamTlsIssues (pool : Pool) : List ModelIssue :=
  match pool.upstreamTls with
  | none => []
  | some tls =>
      (if pool.protocolClass = .udp then
          [⟨.optionNotSupported, [pool.key],
            s!"풀 '{pool.key}' 는 udp 인데 upstream_tls 를 켰다 — 엔진이 안 한다 (§4.3)"⟩]
        else []) ++
      (if tls.enabled && isPassthroughPool model pool.key then
          [⟨.optionNotSupported, [pool.key],
            s!"풀 '{pool.key}' 는 tls_passthrough 라우트가 가리키는데 upstream_tls 를 켰다 — " ++
              "클라이언트 TLS 바이트를 다시 TLS 로 감싸면 TLS-over-TLS 가 된다 (§4.3)"⟩]
        else []) ++
      (if tls.verify = some true && tls.caBundle.isNone then
          [⟨.optionNotSupported, [pool.key],
            s!"풀 '{pool.key}' 가 upstream_tls.verify 를 켰는데 caBundle 이 없다 — " ++
              "신뢰 번들 없이는 검증이 걸리지 않는다 (§4.3)"⟩]
        else []) ++
      match tls.caBundle with
      | none => []
      | some bundle =>
          (if hasCertificate model bundle then []
            else [⟨.unknownTlsReference, [pool.key],
              s!"풀 '{pool.key}' 의 upstream_tls.caBundle '{bundle}' 이 없는 인증서다"⟩]) ++
          match model.certificates.find? fun certificate => certificate.key = bundle with
          | none => []
          | some certificate =>
              if certificate.materialRef.isNone then
                [⟨.unknownTlsReference, [pool.key],
                  s!"풀 '{pool.key}' 의 upstream_tls.caBundle '{bundle}' 에 자료가 없다 — " ++
                    "발급 전 인증서는 신뢰 번들로 쓸 수 없다"⟩]
              else []

def tlsReferenceIssues (listener : Listener) : List ModelIssue :=
  match listener.tls with
  | none => []
  | some tls =>
      (if model.tlsPolicies.any fun policy => policy.key = tls.policy then []
        else [⟨.unknownTlsReference, [listener.key],
          s!"리스너 '{listener.key}' 가 존재하지 않는 TLS 정책 '{tls.policy}' 를 참조한다"⟩]) ++
      if hasCertificate model tls.defaultCertificate then []
      else [⟨.unknownTlsReference, [listener.key],
        s!"리스너 '{listener.key}' 가 존재하지 않는 인증서 '{tls.defaultCertificate}' 를 " ++
          "default 인증서로 참조한다"⟩]

def usedBy (certificateKey subject : String) : List ModelIssue :=
  if model.certificates.any fun certificate =>
      certificate.key = certificateKey && certificate.materialRef.isNone then
    [⟨.certificateHasNoMaterial, [subject, certificateKey],
      s!"'{subject}' 가 자료 없는 인증서 '{certificateKey}' 를 쓴다. ACME 발급 전이라 " ++
        "제시할 것이 없다 — 발급된 뒤에 바인딩한다"⟩]
  else []

def acmeIntentIssues (certificate : Certificate) : List ModelIssue :=
  match certificate.acme with
  | none => []
  | some intent =>
      (if intent.domains = [] then
          [⟨.invalidAcmeIntent, [certificate.key],
            s!"인증서 '{certificate.key}' 의 ACME 의도에 도메인이 없다"⟩]
        else []) ++
      intent.domains.flatMap fun domain =>
        match parseHostPattern runtime.hosts domain with
        | .ok _ => []
        | .error refusal =>
            [⟨.invalidAcmeIntent, [certificate.key],
              s!"인증서 '{certificate.key}' 의 ACME 도메인 '{domain}': {refusal.message}"⟩]

def hstsIssues (policy : TlsPolicy) : List ModelIssue :=
  match policy.hsts with
  | none => []
  | some hsts =>
      if hsts.preload ≠ some true then []
      else
        (if hsts.maxAgeSeconds < 31536000 then
            [⟨.invalidHsts, [policy.key],
              s!"TLS 정책 '{policy.key}' 가 HSTS preload 를 요구하는데 max-age 가 " ++
                s!"{toString hsts.maxAgeSeconds} 초다 — preload 목록은 1년(31536000) 이상을 요구한다"⟩]
          else []) ++
        if hsts.includeSubdomains ≠ some true then
          [⟨.invalidHsts, [policy.key],
            s!"TLS 정책 '{policy.key}' 가 HSTS preload 를 요구하는데 includeSubdomains 가 없다 — " ++
              "preload 목록이 요구한다"⟩]
        else []

def bindsHttps (binding : SniCertificateBinding) : Bool :=
  (listenerOf model binding.listener).any Listener.isHttps

def bindingIssues (binding : SniCertificateBinding) : List ModelIssue :=
  match listenerOf model binding.listener with
  | none =>
      [⟨.unknownListener, [binding.key],
        s!"SNI 바인딩 '{binding.key}' 가 존재하지 않는 리스너 '{binding.listener}' 를 참조한다"⟩]
  | some listener =>
      if !listener.isHttps then
        [⟨.sniBindingProtocolMismatch, [binding.key, binding.listener],
          s!"SNI 바인딩 '{binding.key}' 가 {protocolName (protocolOf listener.body)} 리스너 " ++
            s!"'{binding.listener}' 에 붙었다. " ++
            "TLS 를 종단하지 않는 리스너는 인증서를 제시하지 않는다"⟩]
      else
        (if hasCertificate model binding.certificate then []
          else [⟨.unknownTlsReference, [binding.key],
            s!"SNI 바인딩 '{binding.key}' 가 존재하지 않는 인증서 '{binding.certificate}' 를 참조한다"⟩]) ++
        usedBy model binding.certificate s!"SNI 바인딩 '{binding.key}'" ++
        binding.hosts.flatMap fun host =>
          match parseHostPattern runtime.hosts host with
          | .ok _ => []
          | .error refusal =>
              [⟨.invalidSniHost, [binding.key],
                s!"SNI 바인딩 '{binding.key}' 의 호스트 '{host}': {refusal.message}"⟩]

def bindingsByListener : List (String × List SniCertificateBinding) :=
  groupsOf ((model.sniBindings.filter (bindsHttps model)).map fun binding =>
    (binding.listener, binding))

def bindingConflicts (listener : String) :
    List (String × String) → List (String × String) → List ModelIssue
  | _, [] => []
  | seen, (host, certificate) :: rest =>
      (match seen.lookup host with
        | none => []
        | some previous =>
            if previous = certificate then []
            else
              [⟨.sniBindingConflict, [listener, host],
                s!"리스너 '{listener}' 에서 호스트 '{host}' 가 인증서 '{previous}' 와 " ++
                  s!"'{certificate}' 둘에 묶였다. 어느 쪽이 제시되는지 설정이 정하지 못한다"⟩]) ++
        bindingConflicts listener ((host, certificate) :: seen) rest

def coveredBy (listenerKey host : String) : Bool :=
  model.sniBindings.any fun binding =>
    binding.listener = listenerKey && bindsHttps model binding &&
      binding.hosts.any fun pattern => coversHost pattern host

def missingBindingIssues (route : HttpRoute) : List ModelIssue :=
  match listenerOf model route.listener with
  | none => []
  | some listener =>
      if !listener.isHttps || listener.hosts.isSome then []
      else
        (route.hosts.filter fun host => !coveredBy model route.listener host).map fun host =>
          ⟨.sniBindingMissing, [route.key, host],
            s!"리스너 '{route.listener}' 의 호스트 '{host}' 를 덮는 SNI 바인딩이 없다. " ++
              "handshake 에서 제시할 인증서가 정해지지 않는다"⟩

def tlsIssues : List ModelIssue :=
  model.listeners.flatMap (tlsReferenceIssues model) ++
    (model.listeners.flatMap fun listener =>
      match listener.tls with
      | none => []
      | some tls => usedBy model tls.defaultCertificate s!"리스너 '{listener.key}'") ++
    model.certificates.flatMap (acmeIntentIssues runtime) ++
    model.tlsPolicies.flatMap hstsIssues ++
    model.sniBindings.flatMap (bindingIssues runtime model) ++
    ((bindingsByListener model).flatMap fun (listener, bindings) =>
      bindingConflicts listener [] (bindings.flatMap fun binding =>
        binding.hosts.map fun host => (host, binding.certificate))) ++
    model.httpRoutes.flatMap (missingBindingIssues model)

/-! ## All checks -/

def validateModel : List ModelIssue :=
  model.backends.flatMap (backendIssues model) ++
    model.pools.flatMap (poolIssues model) ++
    model.listeners.flatMap (listenerSetIssues model) ++
    model.listeners.flatMap (listenerIssues runtime caps model) ++
    conflictIssues runtime model ++
    vhostIssues runtime caps model ++
    model.listeners.flatMap (streamRealipIssues caps) ++
    model.httpRoutes.flatMap (httpRouteIssues model) ++
    model.passthroughRoutes.flatMap (passthroughRouteIssues model) ++
    model.httpRoutes.flatMap (routeSetIssues model) ++
    (model.httpRoutes.flatMap fun route =>
      shadowIssues model route.key 0 [] (route.sourceRules.getD [])) ++
    model.httpRoutes.flatMap acmePathIssues ++
    strictIssues runtime model ++
    model.pools.flatMap (upstreamTlsIssues model) ++
    tlsIssues runtime model ++
    compileIssues runtime model

end Checks

end Validate

end Barycenter
