import Barycenter.Conf.HttpParts

/-!
# Http server blocks

A listener has one server block for every host, and the block has one location
for every path of the routes on the host.  Source rules of a route stand in
front of the body of its locations, and the rules that proxy have locations of
their own.
-/

namespace Barycenter

namespace Conf

open Config
open Validate (Runtime inKeyOrder hasBackends poolOf)
open Route (HostPattern parseHostPattern patternKey RouteInput compileHostRoutes StrictHost
  planStrictPriority StrictPriorityPlan)

/-! ## Locations -/

/-- The characters that an expression would read as its own. -/
def isRegexMeta (char : Char) : Bool := char ∈ ".*+?^$\x7b\x7d()|[]\\".toList

/-- `reEscape` and `literalRegex` -/
def reEscape (text : String) : String :=
  String.ofList (text.toList.flatMap fun char => if isRegexMeta char then ['\\', char] else [char])

def location (path : String) (body : List DraftNode) : DraftNode :=
  .block "location" [.lit path] body

/-- `RULE_CODE_BASE` -/
def ruleCodeBase : Nat := 570

section

variable (runtime : Runtime) (model : Model)

def poolTls (key : String) : Option UpstreamTls := (poolOf model key).bind Pool.upstreamTls

def schemeOf (tls : Option UpstreamTls) : String :=
  if tls.any UpstreamTls.enabled then "https" else "http"

def forwardedNodes : List DraftNode :=
  [.directive "proxy_set_header" [.lit "Host", .variable "host"],
    .directive "proxy_set_header" [.lit "X-Forwarded-For", .variable "proxy_add_x_forwarded_for"],
    .directive "proxy_set_header" [.lit "X-Forwarded-Proto", .variable "scheme"]]

/-- The headers of a listener that an action does not set itself. -/
def inheritedHeaders (own : Option (List HeaderRule)) (headers : Option (List HeaderRule)) :
    Option (List HeaderRule) :=
  let overridden := (own.getD []).map fun rule => runtime.hosts.lowercase rule.name
  headers.map fun rules =>
    rules.filter fun rule => runtime.hosts.lowercase rule.name ∉ overridden

def locationBody (requestHeaders : Option (List HeaderRule)) : HttpAction → List DraftNode
  | .proxy pool websocket own rewritePrefix =>
      if !hasBackends model pool then []
      else
        let tls := poolTls model pool
        [.directive "proxy_pass"
            [.lit (schemeOf tls ++ "://" ++ upstreamName pool ++ rewritePrefix.getD "")]] ++
          upstreamTlsNodes model tls ++ forwardedNodes ++
          [.directive "proxy_http_version" [.lit "1.1"]] ++
          (if websocket then
              [.directive "proxy_set_header" [.lit "Upgrade", .variable "http_upgrade"],
                .directive "proxy_set_header" [.lit "Connection", .variable "connection_upgrade"]]
            else []) ++
          requestHeaderNodes (inheritedHeaders runtime own requestHeaders) ++
          requestHeaderNodes own
  | .redirect target status => [returnNode [.num status, .lit target]]
  | .reject status => [returnNode [.num status]]

/-- What a source rule adds to its location, and beside it. -/
structure RuleNodes where
  head : List DraftNode
  named : List DraftNode

def unavailable : DraftNode := returnNode [.num 503]

def ruleNodes (requestHeaders : Option (List HeaderRule)) (route : HttpRoute) (path : String)
    (rule : HttpSourceRule) (index : Nat) : RuleNodes :=
  let cond := condition (routeRuleVar route.key index)
  match rule.action with
  | .proxy pool websocket own rewritePrefix =>
      match locationBody runtime model requestHeaders (.proxy pool websocket own none) with
      | [] => ⟨[.block "if" cond [unavailable]], []⟩
      | first :: rest =>
          let name := ruleLocation route.key ((routePaths route).idxOf path) index
          let code := ruleCodeBase + index
          ⟨[.directive "error_page" [.num code, .lit "=", .lit name],
              .block "if" cond [returnNode [.num code]]],
            [location name
              ((rewritePrefix.toList.map fun target =>
                  .directive "rewrite" [.regex ("^" ++ reEscape path ++ "(.*)$"),
                    .lit (target ++ "$1"), .lit "break"]) ++ first :: rest)]⟩
  | action => ⟨[.block "if" cond (locationBody runtime model requestHeaders action)], []⟩

def routeLocations (requestHeaders : Option (List HeaderRule)) (route : HttpRoute)
    (path : String) : List DraftNode :=
  let body := locationBody runtime model requestHeaders route.action
  match route.sourceRules with
  | none => if body = [] then [] else [location path body]
  | some rules =>
      let nodes := rules.zipIdx.map fun (rule, index) =>
        ruleNodes runtime model requestHeaders route path rule index
      location path (nodes.flatMap RuleNodes.head ++
          if body = [] then [unavailable] else body) ::
        nodes.flatMap RuleNodes.named

/-- What is done with a request that no route takes; a redirect has the port of its listener. -/
def defaultActionLocations (listener : Listener) (redirectTo : Option Nat) : List DraftNode :=
  match redirectTo with
  | some httpsPort =>
      let target :=
        if httpsPort = 443 then "https://$host$request_uri"
        else "https://$host:" ++ toString httpsPort ++ "$request_uri"
      [location "/" [returnNode [.num 301, .lit target]]]
  | none =>
      match listener.http.bind HttpProfile.defaultAction with
      | some (.pool key) =>
          if hasBackends model key then
            let tls := poolTls model key
            [location "/"
              ([.directive "proxy_pass" [.lit (schemeOf tls ++ "://" ++ upstreamName key)]] ++
                upstreamTlsNodes model tls ++ forwardedNodes ++
                requestHeaderNodes ((listener.http.bind HttpProfile.headers).bind
                  HeaderRules.request))]
          else [location "/" [returnNode [.num 444]]]
      | some .reject | none => [location "/" [returnNode [.num 444]]]

/-! ## Servers for hosts -/

structure PathEntry where
  route : HttpRoute
  path : String
  key : String

def pathEntries (routes : List HttpRoute) : List PathEntry :=
  routes.flatMap fun route =>
    let paths := routePaths route
    paths.map fun path => ⟨route, path, routePathKey route.key path (1 < paths.length)⟩

def entryInput (host : String) (entry : PathEntry) : RouteInput where
  key := entry.key
  host := host
  priority := entry.route.priority
  pathPrefix :=
    if entry.route.pathPrefix.isNone && entry.route.pathPrefixes.isNone then none
    else some entry.path

def orderedEntries (host : String) (entries : List PathEntry) : List PathEntry :=
  let compiled := compileHostRoutes runtime.hosts (entries.map (entryInput host))
  if 0 < compiled.errors.length then entries
  else compiled.order.filterMap fun route => entries.find? fun entry => entry.key = route.key

/-- The routes with a host, in the order of their keys. -/
def hostRoutes (routes : List HttpRoute) (host : String) : List HttpRoute :=
  (inKeyOrder HttpRoute.key routes).flatMap fun route =>
    (route.hosts.filter fun other => other = host).map fun _ => route

/-- The hosts of a listener, or else those of its routes. -/
def hostList (listener : Listener) (routes : List HttpRoute) : List String :=
  inKeyOrder id
    (match listener.hosts with
      | some hosts => hosts.eraseDups
      | none => (routes.flatMap HttpRoute.hosts).eraseDups)

def strictPlan (listener : Listener) (routes : List HttpRoute) : StrictPriorityPlan :=
  if (listener.http.bind HttpProfile.strictPriority) = some true then
    planStrictPriority ((hostList listener routes).filterMap fun host =>
      match parseHostPattern runtime.hosts host with
      | .ok pattern =>
          some ⟨host, pattern, ((hostRoutes routes host).map HttpRoute.priority).foldl max 0⟩
      | .error _ => none)
  else ⟨[], []⟩

structure ServerContext where
  listener : Listener
  /-- The port of the https listener, when the listener is its redirect. -/
  redirectTo : Option Nat
  tls : Option TlsContext
  acme : Bool
  alsoOn : List AlsoOn

structure HostServer where
  host : String
  pattern : HostPattern
  lowered : Bool
  locations : List DraftNode

variable (context : ServerContext) (routes : List HttpRoute)

def requestHeadersOf (listener : Listener) : Option (List HeaderRule) :=
  (listener.http.bind HttpProfile.headers).bind HeaderRules.request

/-- The locations for the routes of a host, and for the requests that none of them takes. -/
def hostLocations (host : String) : List DraftNode :=
  let entries := orderedEntries runtime host (pathEntries (hostRoutes routes host))
  (entries.flatMap fun entry =>
      routeLocations runtime model (requestHeadersOf context.listener) entry.route entry.path) ++
    if context.listener.hosts.isSome && !(entries.any fun entry => entry.path = "/") then
      defaultActionLocations model context.listener context.redirectTo
    else []

/-- The servers for hosts, in the order of the hosts; one without locations is left out. -/
def hostServers : List HostServer :=
  let plan := strictPlan runtime context.listener routes
  (hostList context.listener routes).filterMap fun host =>
    match parseHostPattern runtime.hosts host with
    | .error _ => none
    | .ok pattern =>
        let locations := hostLocations runtime model context routes host
        if locations = [] then none
        else some ⟨host, pattern, patternKey pattern ∈ plan.lowered, locations⟩

def rankInPlan (plan : StrictPriorityPlan) (pattern : HostPattern) : Nat :=
  plan.order.length - 1 - plan.order.reverse.idxOf (patternKey pattern)

/-- Lowered hosts stand last, in the order of the plan. -/
def serverOrder : List HostServer :=
  let plan := strictPlan runtime context.listener routes
  let servers := hostServers runtime model context routes
  servers.filter (fun server => !server.lowered) ++
    (servers.filter HostServer.lowered).insertionSort fun left right =>
      rankInPlan plan left.pattern ≤ rankInPlan plan right.pattern

end

end Conf

end Barycenter
