import Barycenter.Foundation.TextOrder
import Barycenter.Model.Provisional
import Barycenter.Validate.Cidr

/-!
# What is read off a model

The paths and the actions of a route, and the address sets that listeners and
routes refer to.  Expanding a model replaces every reference to a set by the
ranges of the set; after that no part of the program knows about references.
-/

namespace Barycenter

namespace Config

open Validate (addressSetRef)

def lastWith {α : Type} (keyOf : α → String) (items : List α) (key : String) : Option α :=
  items.reverse.find? fun item => keyOf item = key

/-! ## Routes -/

def routePaths (route : HttpRoute) : List String :=
  match route.pathPrefixes with
  | some (first :: rest) => first :: rest
  | _ => [route.pathPrefix.getD "/"]

def routePathKey (key path : String) (many : Bool) : String :=
  if many then key ++ " " ++ path else key

def routeActions (route : HttpRoute) : List HttpAction :=
  route.action :: (route.sourceRules.getD []).map HttpSourceRule.action

/-! ## Parts of a listener -/

namespace Listener

def isHttp (listener : Listener) : Bool :=
  match listener.body with
  | .http _ | .https _ => true
  | _ => false

def isHttps (listener : Listener) : Bool :=
  match listener.body with
  | .https _ => true
  | _ => false

def acceptProxyProtocol (listener : Listener) : Option InboundProxyProtocol :=
  match listener.body with
  | .http body => body.acceptProxyProtocol
  | .https body => body.acceptProxyProtocol
  | .tlsPassthrough body => body.acceptProxyProtocol
  | .tcp body => body.acceptProxyProtocol
  | .udp _ => none

def realIpFromHeader (listener : Listener) : Option InboundRealIpHeader :=
  match listener.body with
  | .http body => body.realIpFromHeader
  | .https body => body.realIpFromHeader
  | _ => none

def hosts (listener : Listener) : Option (List String) :=
  match listener.body with
  | .http body => body.hosts
  | .https body => body.hosts
  | _ => none

def http (listener : Listener) : Option HttpProfile :=
  match listener.body with
  | .http body => body.http
  | .https body => body.http
  | _ => none

def tls (listener : Listener) : Option RawTlsBinding :=
  match listener.body with
  | .https body => some body.tls
  | _ => none

end Listener

/-! ## Address sets -/

/-- The keys of the sets that texts refer to, each once. -/
def setRefs (texts : List String) : List String :=
  (texts.filterMap addressSetRef).eraseDups.insertionSort fun left right =>
    !(Text.before right left)

def referencedSets (listener : Listener) : List String :=
  setRefs (listener.sourceAllow.getD [] ++
    (listener.realIpFromHeader.map InboundRealIpHeader.trustedCidrs).getD [] ++
    (listener.acceptProxyProtocol.map InboundProxyProtocol.trustedCidrs).getD [])

def referencedSetsOfRoute (route : HttpRoute) : List String :=
  setRefs ((route.sourceRules.getD []).flatMap HttpSourceRule.sources)

def rangesOf (model : Model) (key : String) : Option (List String) :=
  (lastWith AddressSet.key (model.addressSets.getD []) key).map AddressSet.cidrs

/-- A text, or the ranges of the set that it refers to; none twice. -/
def expandList (sets : String → Option (List String)) (texts : List String) : List String :=
  (texts.flatMap fun text => ((addressSetRef text).bind sets).getD [text]).eraseDups

def expandProxyProtocol (sets : String → Option (List String))
    (accept : InboundProxyProtocol) : InboundProxyProtocol :=
  { trustedCidrs := expandList sets accept.trustedCidrs }

def expandRealIp (sets : String → Option (List String))
    (realIp : InboundRealIpHeader) : InboundRealIpHeader :=
  { realIp with trustedCidrs := expandList sets realIp.trustedCidrs }

def expandBody (sets : String → Option (List String)) : ListenerBody → ListenerBody
  | .http body => .http
      { body with
        acceptProxyProtocol := body.acceptProxyProtocol.map (expandProxyProtocol sets)
        realIpFromHeader := body.realIpFromHeader.map (expandRealIp sets) }
  | .https body => .https
      { body with
        acceptProxyProtocol := body.acceptProxyProtocol.map (expandProxyProtocol sets)
        realIpFromHeader := body.realIpFromHeader.map (expandRealIp sets) }
  | .tlsPassthrough body => .tlsPassthrough
      { body with acceptProxyProtocol := body.acceptProxyProtocol.map (expandProxyProtocol sets) }
  | .tcp body => .tcp
      { body with acceptProxyProtocol := body.acceptProxyProtocol.map (expandProxyProtocol sets) }
  | .udp body => .udp body

def expandListener (sets : String → Option (List String)) (listener : Listener) : Listener :=
  if (referencedSets listener).length = 0 then listener
  else
    { listener with
      sourceAllow := listener.sourceAllow.map (expandList sets)
      body := expandBody sets listener.body }

def expandRoute (sets : String → Option (List String)) (route : HttpRoute) : HttpRoute :=
  if (referencedSetsOfRoute route).length = 0 then route
  else
    { route with
      sourceRules := route.sourceRules.map fun rules => rules.map fun rule =>
        { rule with sources := expandList sets rule.sources } }

def expandAddressSets (model : Model) : Model :=
  { model with
    listeners := model.listeners.map (expandListener (rangesOf model))
    httpRoutes := model.httpRoutes.map (expandRoute (rangesOf model)) }

/-! ## What expanding keeps -/

section

variable {sets : String → Option (List String)} {listener : Listener}

@[simp]
theorem expandBody_hosts : ({ listener with body := expandBody sets listener.body } : Listener).hosts =
    listener.hosts := by
  cases body : listener.body <;> simp [Listener.hosts, expandBody, body]

end

section

variable {sets : String → Option (List String)} {route : HttpRoute}

@[simp]
theorem expandRoute_listener : (expandRoute sets route).listener = route.listener := by
  unfold expandRoute
  split <;> rfl

@[simp]
theorem expandRoute_hosts : (expandRoute sets route).hosts = route.hosts := by
  unfold expandRoute
  split <;> rfl

end

end Config

end Barycenter
