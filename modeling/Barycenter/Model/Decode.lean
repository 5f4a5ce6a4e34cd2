import Barycenter.Validate.Model

/-!
# The values of a decoded model

The decoder reads a model from outside text.  It refuses values of the wrong
type and fields that it does not know, which a value of the type of models
cannot have, and it refuses values that the types admit: numbers out of their
range, empty lists, texts of the wrong shape and fields that do not go together.
The renderer runs the decoder again on the model it is given.
-/

namespace Barycenter

namespace Validate

open Config

/-! ## Numbers and lists -/

/-- `int` -/
def intIssues (path : String) (value min max : Nat) : List ModelIssue :=
  if min ≤ value ∧ value ≤ max then []
  else [⟨.outOfRange, [path],
    s!"{toString min}~{toString max} 의 정수여야 한다 (받은 것: {toString value})"⟩]

def optionalInt (path : String) (value : Option Nat) (min max : Nat) : List ModelIssue :=
  match value with
  | none => []
  | some number => intIssues path number min max

def within (value : Option Nat) (min max : Nat) : Option Nat :=
  value.filter fun number => min ≤ number && number ≤ max

def enumIssue (path : String) (value : Nat) (allowed : List Nat) : ModelIssue :=
  ⟨.invalidEnum, [path], s!"아는 값이 아니다: {toString value} — 가능한 것은 " ++
    ", ".intercalate (allowed.map fun number => toString number)⟩

def emptyIssue (path message : String) (items : List String) : List ModelIssue :=
  if items = [] then [⟨.outOfRange, [path], message⟩] else []

def item (path : String) (index : Nat) : String := path ++ "[" ++ toString index ++ "]"

def duplicateIssues (path : String) : Nat → List String → List String → List ModelIssue
  | _, _, [] => []
  | index, seen, text :: rest =>
      (if text ∈ seen then
          [⟨.duplicate, [item path index], s!"같은 대역이 두 번 있다: {text}"⟩]
        else []) ++ duplicateIssues path (index + 1) (text :: seen) rest

/-! ## Headers, limits and actions -/

def reservedRequestHeaders : List String :=
  ["x-forwarded-for", "x-forwarded-proto", "upgrade", "connection"]

def reservedResponseHeaders : List String := ["strict-transport-security"]

section

variable (runtime : Runtime)

def headerListIssues (path : String) (reserved : List String) :
    Nat → List String → List HeaderRule → List ModelIssue
  | _, _, [] => []
  | index, seen, rule :: rest =>
      let place := item path index
      let lower := runtime.hosts.lowercase rule.name
      match validateHeaderName rule.name, validateHeaderValue rule.value with
      | .error message, _ =>
          ⟨.invalidValue, [place ++ ".name"], message⟩ ::
            headerListIssues path reserved (index + 1) seen rest
      | .ok _, .error message =>
          ⟨.invalidValue, [place ++ ".value"], message⟩ ::
            headerListIssues path reserved (index + 1) seen rest
      | .ok _, .ok _ =>
          if lower ∈ reserved then
            ⟨.invalidValue, [place ++ ".name"],
              s!"'{rule.name}' 은 렌더러가 이미 내고 그 위에 다른 것이 선다 — 덮으면 조용히 끊긴다"⟩ ::
              headerListIssues path reserved (index + 1) seen rest
          else if lower ∈ seen then
            ⟨.duplicate, [place ++ ".name"],
              s!"'{rule.name}' 이 두 번 있다 — 어느 쪽이 이기는지 모델이 안 말한다"⟩ ::
              headerListIssues path reserved (index + 1) seen rest
          else headerListIssues path reserved (index + 1) (lower :: seen) rest

def headerRulesIssues (path : String) (rules : HeaderRules) : List ModelIssue :=
  headerListIssues runtime (path ++ ".request") reservedRequestHeaders 0 []
      (rules.request.getD []) ++
    headerListIssues runtime (path ++ ".response") reservedResponseHeaders 0 []
      (rules.response.getD [])

def rateLimitIssues (path : String) (limit : RateLimit) : List ModelIssue :=
  let rate := within limit.requestsPerSecond 1 1000000
  let burst := within limit.burst 1 1000000
  let connections := within limit.maxConnections 1 1000000
  optionalInt (path ++ ".requestsPerSecond") limit.requestsPerSecond 1 1000000 ++
    optionalInt (path ++ ".burst") limit.burst 1 1000000 ++
    optionalInt (path ++ ".maxConnections") limit.maxConnections 1 1000000 ++
    optionalInt (path ++ ".zoneKb") limit.zoneKb 16 1048576 ++
    if rate.isNone && (burst.isSome || limit.nodelay.isSome) then
      [⟨.invalidValue, [path],
        "burst·nodelay 는 requestsPerSecond 가 있어야 한다 — 무엇의 burst 인지가 없다"⟩]
    else if rate.isNone && connections.isNone then
      [⟨.invalidValue, [path],
        "requestsPerSecond 나 maxConnections 중 하나는 있어야 한다 — " ++
          "아무것도 안 할 거면 안 적는 것과 같다"⟩]
    else []

def proxyLimitIssues (path : String) (limits : ProxyLimits) : List ModelIssue :=
  optionalInt (path ++ ".connectTimeoutMs") limits.connectTimeoutMs 1 75000 ++
    optionalInt (path ++ ".readTimeoutMs") limits.readTimeoutMs 1 86400000 ++
    optionalInt (path ++ ".sendTimeoutMs") limits.sendTimeoutMs 1 86400000 ++
    optionalInt (path ++ ".clientMaxBodyBytes") limits.clientMaxBodyBytes 0 (2 ^ 31 - 1)

def httpProfileIssues (path : String) (profile : HttpProfile) : List ModelIssue :=
  (profile.limits.map (proxyLimitIssues (path ++ ".limits"))).getD [] ++
    (profile.headers.map (headerRulesIssues runtime (path ++ ".headers"))).getD [] ++
    (profile.rateLimit.map (rateLimitIssues (path ++ ".rateLimit"))).getD []

def redirectStatuses : List Nat := [301, 302, 307, 308]

def rejectStatuses : List Nat := [403, 404, 444]

/-- An action with an unknown status is not taken over. -/
def actionDecodes : HttpAction → Bool
  | .proxy _ _ _ _ => true
  | .redirect _ status => status ∈ redirectStatuses
  | .reject status => status ∈ rejectStatuses

def httpActionIssues (path : String) : HttpAction → List ModelIssue
  | .proxy _ _ requestHeaders rewritePrefix =>
      headerListIssues runtime (path ++ ".requestHeaders") reservedRequestHeaders 0 []
          (requestHeaders.getD []) ++
        match rewritePrefix with
        | none => []
        | some target =>
            if Store.rewriteSyntax target then []
            else [⟨.invalidValue, [path ++ ".rewritePrefix"],
              "'/' 로 시작하는 경로여야 한다. 글자·숫자·- . _ ~ / % 만 쓴다: " ++
                JsonText.quoted target⟩]
  | .redirect _ status =>
      if status ∈ redirectStatuses then []
      else [enumIssue (path ++ ".status") status redirectStatuses]
  | .reject status =>
      if status ∈ rejectStatuses then []
      else [enumIssue (path ++ ".status") status rejectStatuses]

/-! ## Listeners -/

def rangeIssues (path example_ : String) : Nat → List String → List ModelIssue
  | _, [] => []
  | index, text :: rest =>
      (if (cidrVersion text).isNone && (addressSetRef text).isNone then
          [⟨.invalidValue, [item path index],
            "CIDR · IP 주소 · @주소집합 이 아니다: " ++ JsonText.quoted text ++ example_⟩]
        else []) ++ rangeIssues path example_ (index + 1) rest

def sourceAllowIssues (path : String) (texts : List String) : List ModelIssue :=
  rangeIssues path " — 예: 173.245.48.0/20 · 2400:cb00::/32 · @cloudflare" 0 texts ++
    if texts = [] then
      [⟨.outOfRange, [path], "비어 있을 수 없다 — 제한을 안 걸 거면 필드를 빼고, " ++
        "아무도 안 받을 거면 enabled: false 로 둔다"⟩]
    else duplicateIssues path 0 [] texts

def proxyProtocolIssues (path : String) (accept : InboundProxyProtocol) : List ModelIssue :=
  emptyIssue (path ++ ".trustedCidrs")
    "비어 있을 수 없다 — 아무도 안 믿을 거면 PROXY 수신을 켜지 않는다" accept.trustedCidrs

def realIpIssues (path : String) (realIp : InboundRealIpHeader) : List ModelIssue :=
  emptyIssue (path ++ ".trustedCidrs")
    "비어 있을 수 없다 — 아무도 안 믿을 거면 헤더 realip 을 켜지 않는다" realIp.trustedCidrs

def listenerHostsIssues (path : String) (hosts : List String) : List ModelIssue :=
  if hosts = [] then
    [⟨.invalidValue, [path], "비어 있을 수 없다 — 호스트 없는 리스너는 hosts 를 안 적는다"⟩]
  else []

def decodeListener (path : String) (listener : Listener) : List ModelIssue :=
  intIssues (path ++ ".port") listener.port 1 65535 ++
    (listener.sourceAllow.map (sourceAllowIssues (path ++ ".sourceAllow"))).getD [] ++
    (match listener.body with
      | .https body => optionalInt (path ++ ".httpRedirect.port") body.httpRedirect 1 65535
      | _ => []) ++
    (listener.hosts.map (listenerHostsIssues (path ++ ".hosts"))).getD [] ++
    (listener.acceptProxyProtocol.map
      (proxyProtocolIssues (path ++ ".acceptProxyProtocol"))).getD [] ++
    (listener.realIpFromHeader.map (realIpIssues (path ++ ".realIpFromHeader"))).getD [] ++
    (listener.http.map (httpProfileIssues runtime (path ++ ".http"))).getD [] ++
    match listener.body with
    | .tlsPassthrough body => optionalInt (path ++ ".prereadTimeoutS") body.prereadTimeoutS 1 3600
    | _ => []

/-! ## Pools and backends -/

def startsAndGoesOn (start rest : Char → Bool) (most : Nat) (text : String) : Bool :=
  match text.toList with
  | [] => false
  | first :: others => start first && others.all rest && others.length ≤ most

def isClusterLabel (label : List Char) : Bool :=
  Route.isLdhLabel label && label.length ≤ 63

/-- `DISCOVERY_QUERY` -/
def discoveryQuery (source : DiscoverySourceKind) (query : String) : Bool :=
  match source with
  | .dnsSrv => startsAndGoesOn isWord Store.nameCharacter 252 query
  | .consul => startsAndGoesOn Char.isAlphanum Store.nameCharacter 127 query
  | .kubernetes =>
      match query.toList.splitOn '/' with
      | [scope, service] => isClusterLabel scope && isClusterLabel service
      | _ => false
  | .file =>
      startsAndGoesOn (fun char => isWord char || char = '-') Store.nameCharacter 127 query

def discoverySourceName : DiscoverySourceKind → String
  | .dnsSrv => "dns-srv"
  | .consul => "consul"
  | .kubernetes => "kubernetes"
  | .file => "file"

def discoveryShape : DiscoverySourceKind → String
  | .dnsSrv => "SRV 이름 (예: _http._tcp.api.internal)"
  | .consul => "서비스 이름 (예: api)"
  | .kubernetes => "네임스페이스/서비스 (예: prod/api)"
  | .file => "파일 이름 (예: api.json — 경로 없이)"

def discoveryIssues (path : String) (discovery : PoolDiscovery) : List ModelIssue :=
  optionalInt (path ++ ".port") discovery.port 1 65535 ++
    if discoveryQuery discovery.source discovery.query then []
    else [⟨.invalidValue, [path ++ ".query"],
      s!"{discoverySourceName discovery.source} 의 query 는 {discoveryShape discovery.source} 다 " ++
        "(받은 것: " ++ JsonText.quoted discovery.query ++ ")"⟩]

def healthCheckIssues (path : String) (check : HealthCheck) : List ModelIssue :=
  optionalInt (path ++ ".port") check.port 1 65535 ++
    optionalInt (path ++ ".intervalS") check.intervalS 1 86400 ++
    optionalInt (path ++ ".timeoutS") check.timeoutS 1 300 ++
    optionalInt (path ++ ".rise") check.rise 1 100 ++
    optionalInt (path ++ ".fall") check.fall 1 100 ++
    (match check.expectStatus with
      | none => []
      | some statuses =>
          (statuses.zipIdx.flatMap fun (status, index) =>
            intIssues (item (path ++ ".expectStatus") index) status 100 599) ++
            if (statuses.filter fun status => 100 ≤ status && status ≤ 599) = [] then
              [⟨.outOfRange, [path ++ ".expectStatus"],
                "비어 있을 수 없다 — 아무 상태도 산 것이 아니면 그 풀은 영원히 죽는다"⟩]
            else []) ++
    match within check.intervalS 1 86400, within check.timeoutS 1 300 with
    | some interval, some timeout =>
        if interval < timeout then
          [⟨.outOfRange, [path ++ ".timeoutS"],
            s!"타임아웃({toString timeout}초)이 주기({toString interval}초)보다 길다 — 프로브가 쌓인다"⟩]
        else []
    | _, _ => []

def decodePool (path : String) (pool : Pool) : List ModelIssue :=
  (pool.healthCheck.map (healthCheckIssues (path ++ ".healthCheck"))).getD [] ++
    (pool.discovery.map (discoveryIssues (path ++ ".discovery"))).getD []

def decodeBackend (path : String) (backend : Backend) : List ModelIssue :=
  intIssues (path ++ ".port") backend.port 1 65535 ++
    intIssues (path ++ ".weight") backend.weight 1 1000000 ++
    optionalInt (path ++ ".softMaxConns") backend.softMaxConns 1 1000000

/-! ## Routes -/

def decodeSourceRules (path : String) (rules : List HttpSourceRule) : List ModelIssue :=
  if rules = [] then
    [⟨.outOfRange, [path], "비어 있을 수 없다 — 출발지 규칙을 안 걸 거면 필드를 뺀다"⟩]
  else if 20 < rules.length then
    [⟨.outOfRange, [path], s!"규칙이 {toString rules.length} 개다 — 20 개까지다. " ++
      "같은 동작의 대역은 한 규칙에 모으거나 주소 집합으로 묶는다"⟩]
  else
    rules.zipIdx.flatMap fun (rule, index) =>
      if rule.sources = [] then
        [⟨.outOfRange, [item path index ++ ".from"],
          "비어 있을 수 없다 — 어느 출발지에 걸지 적는다"⟩]
      else
        rangeIssues (item path index ++ ".from") " — 예: 10.0.0.0/8 · 2001:db8::/32 · @office" 0
            rule.sources ++
          httpActionIssues runtime (item path index ++ ".action") rule.action

def repeatedPath : List String → List String → Option String
  | _, [] => none
  | seen, path :: rest => if path ∈ seen then some path else repeatedPath (path :: seen) rest

def endsInSlash (path : String) : Bool := path.toList.getLast? = some '/'

def rewriteIssue (paths : List String) (action : HttpAction × String) : Option ModelIssue :=
  match action.1 with
  | .proxy _ _ _ (some target) =>
      if !Store.rewriteSyntax target then none
      else
        (paths.find? fun path => endsInSlash path ≠ endsInSlash target).map fun path =>
          ⟨.invalidValue, [action.2 ++ ".rewritePrefix"],
            "끝의 '/' 가 경로 접두사(" ++ JsonText.quoted path ++
              ")와 같아야 한다 — 다르면 경로가 붙거나 겹친다"⟩
  | _ => none

def pathIssues (path : String) (route : HttpRoute) : List ModelIssue :=
  let rewrites := (route.action, path ++ ".action") ::
    (route.sourceRules.getD []).zipIdx.map fun (rule, index) =>
      (rule.action, item (path ++ ".sourceRules") index ++ ".action")
  let place := path ++ ".pathPrefixes"
  let rewriteIssues := ((rewrites.filterMap (rewriteIssue (routePaths route))).head?).toList
  match route.pathPrefixes with
  | none => rewriteIssues
  | some paths =>
      if route.pathPrefix.isSome then
        [⟨.invalidValue, [place],
          "'pathPrefix' 와 'pathPrefixes' 를 함께 적을 수 없다 — 하나만 적어라"⟩]
      else if paths = [] then
        [⟨.invalidValue, [place], "비어 있다 — '/' 하나를 뜻하려면 필드를 빼라"⟩]
      else
        match repeatedPath [] paths with
        | some double =>
            [⟨.invalidValue, [place], "같은 경로 " ++ JsonText.quoted double ++ " 가 두 번 있다"⟩]
        | none => rewriteIssues

def decodeHttpRoute (path : String) (route : HttpRoute) : List ModelIssue :=
  let ruleIssues :=
    (route.sourceRules.map (decodeSourceRules runtime (path ++ ".sourceRules"))).getD []
  intIssues (path ++ ".priority") route.priority 0 1000000 ++
    httpActionIssues runtime (path ++ ".action") route.action ++ ruleIssues ++
    if !actionDecodes route.action || (within (some route.priority) 0 1000000).isNone ||
        0 < ruleIssues.length then []
    else pathIssues path route

def decodePassthroughRoute (path : String) (route : PassthroughRoute) : List ModelIssue :=
  intIssues (path ++ ".priority") route.priority 0 1000000

/-! ## Certificates, policies, sets and settings -/

def decodeCertificate (path : String) (certificate : Certificate) : List ModelIssue :=
  let parts := [certificate.materialRef, certificate.chainDigest, certificate.keyDigest]
  if !(parts.all Option.isSome || parts.all Option.isNone) then
    [⟨.missingField, [path],
      "materialRef·chainDigest·keyDigest 는 셋 다 있거나 셋 다 없어야 한다"⟩]
  else if certificate.materialRef.isNone && certificate.acme.isNone then
    [⟨.missingField, [path],
      "자료(materialRef)도 ACME 의도(acme)도 없다 — 이 인증서는 아무 일도 못 한다"⟩]
  else []

def decodeTlsPolicy (path : String) (policy : TlsPolicy) : List ModelIssue :=
  match policy.hsts with
  | none => []
  | some hsts => intIssues (path ++ ".hsts.maxAgeSeconds") hsts.maxAgeSeconds 0 63072000

def sourceName : AddressSourceKind → String
  | .cloudflare => "cloudflare"
  | .aws => "aws"
  | .gcp => "gcp"
  | .fastly => "fastly"
  | .url => "url"

/-- `ADDRESS_SOURCE_OPTION_KEYS` -/
def sourceOptionKeys : AddressSourceKind → List String
  | .cloudflare | .fastly => ["family"]
  | .aws | .gcp => ["family", "services", "regions"]
  | .url => ["family", "url", "jsonPath"]

def presentOptions (options : AddressSourceOptions) : List String :=
  [("family", options.family.isSome), ("services", options.services.isSome),
    ("regions", options.regions.isSome), ("url", options.url.isSome),
    ("jsonPath", options.jsonPath.isSome)].filterMap fun (name, present) =>
      if present then some name else none

def optionNameIssues (path : String) (names : Option (List String)) : List ModelIssue :=
  match names with
  | none => []
  | some texts =>
      (texts.zipIdx.flatMap fun (text, index) =>
        if startsAndGoesOn Char.isAlphanum
            (fun char => Store.nameCharacter char || char = ' ') 63 text then []
        else [⟨.invalidValue, [item path index], "이름의 모양이 아니다: " ++ JsonText.quoted text⟩]) ++
        emptyIssue path "비어 있을 수 없다 — 거르지 않으려면 칸을 지운다" texts

def isSourceUrl (url : String) : Bool :=
  runtime.isHttpsUrl url && (Text.codeUnits url).length ≤ 2048

def isJsonPath (path : String) : Bool :=
  (path.toList.splitOn '.').all fun part =>
    part ≠ [] && part.all fun char => isWord char || char = '-'

def sourceOptionIssues (path : String) (source : Option AddressSourceKind)
    (options : AddressSourceOptions) : List ModelIssue :=
  (match source with
    | none => []
    | some kind =>
        ((presentOptions options).filter fun name => name ∉ sourceOptionKeys kind).map fun name =>
          ⟨.optionNotSupported, [path ++ "." ++ name],
            s!"{sourceName kind} 출처는 '{name}' 를 받지 않는다 (받는 것: " ++
              ", ".intercalate (sourceOptionKeys kind) ++ ")"⟩) ++
    optionNameIssues (path ++ ".services") options.services ++
    optionNameIssues (path ++ ".regions") options.regions ++
    (match options.url with
      | none => []
      | some url =>
          if isSourceUrl runtime url then []
          else [⟨.invalidValue, [path ++ ".url"],
            "https 주소여야 한다 (받은 것: " ++ JsonText.quoted url ++ ")"⟩]) ++
    match options.jsonPath with
    | none => []
    | some target =>
        if isJsonPath target then []
        else [⟨.invalidValue, [path ++ ".jsonPath"],
          "점으로 이은 이름이어야 한다 (예: prefixes.ip_prefix — 받은 것: " ++
            JsonText.quoted target ++ ")"⟩]

def decodeAddressSet (path : String) (set : AddressSet) : List ModelIssue :=
  let place := path ++ ".cidrs"
  (set.sourceOptions.map
      (sourceOptionIssues runtime (path ++ ".sourceOptions") set.source)).getD [] ++
    (if set.sourceOptions.isSome && set.source.isNone then
        [⟨.invalidValue, [path ++ ".sourceOptions"],
          "source 가 없는데 sourceOptions 가 있다 — 손으로 적은 집합에는 출처 옵션이 없다"⟩]
      else []) ++
    (if set.source = some .url &&
        ((set.sourceOptions.bind AddressSourceOptions.url).filter (isSourceUrl runtime)).isNone then
        [⟨.invalidValue, [path ++ ".sourceOptions.url"],
          "url 출처는 sourceOptions.url 이 필요하다"⟩]
      else []) ++
    (set.cidrs.zipIdx.flatMap fun (cidr, index) =>
      if (cidrVersion cidr).isSome then []
      else [⟨.invalidValue, [item place index],
        "CIDR 이나 IP 주소가 아니다: " ++ JsonText.quoted cidr ++
          " (집합은 다른 집합을 참조하지 않는다)"⟩]) ++
    if set.cidrs = [] then
      [⟨.outOfRange, [place], "비어 있을 수 없다 — 쓰지 않는 집합은 지운다"⟩]
    else duplicateIssues place 0 [] set.cidrs

def decodeEngineSettings (settings : EngineSettings) : List ModelIssue :=
  optionalInt "engine.workerShutdownTimeoutS" settings.workerShutdownTimeoutS 1 86400 ++
    optionalInt "engine.membershipDictKb" settings.membershipDictKb 64 1048576 ++
    optionalInt "engine.acmeDictKb" settings.acmeDictKb 32 1048576

/-! ## The whole model -/

def arrayIssues {α : Type} (path : String) (each : String → α → List ModelIssue)
    (items : List α) : List ModelIssue :=
  items.zipIdx.flatMap fun (value, index) => each (item path index) value

def decodeModel (model : Model) : List ModelIssue :=
  (model.engine.map decodeEngineSettings).getD [] ++
    arrayIssues "listeners" (decodeListener runtime) model.listeners ++
    arrayIssues "httpRoutes" (decodeHttpRoute runtime) model.httpRoutes ++
    arrayIssues "passthroughRoutes" decodePassthroughRoute model.passthroughRoutes ++
    arrayIssues "pools" decodePool model.pools ++
    arrayIssues "backends" decodeBackend model.backends ++
    arrayIssues "certificates" decodeCertificate model.certificates ++
    arrayIssues "tlsPolicies" decodeTlsPolicy model.tlsPolicies ++
    arrayIssues "addressSets" (decodeAddressSet runtime) (model.addressSets.getD [])

end

end Validate

end Barycenter
