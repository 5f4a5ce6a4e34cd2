import Barycenter.Foundation.TextOrder
import Barycenter.Store.Restore
import Barycenter.Validate.Ip

/-!
# Socket reservations and their conflicts

Every enabled listener reserves a socket, and so does the plain redirect of an
https listener.  A wildcard address and a specific one are neither equal nor
unrelated: within one context of the engine the wildcard socket serves both,
across contexts and for datagrams they exclude each other.
-/

namespace Barycenter

namespace Validate

open Config
open Store (ListenerProtocol protocolOf)

structure Platform where
  /-- The host name of the URL with this IPv6 host, without its brackets. -/
  canonicalV6 : String → Option String
  localeCompare : String → String → Ordering

/-- A platform for addresses that are already canonical. -/
def plainPlatform : Platform where
  canonicalV6 := some
  localeCompare left right :=
    if Text.before left right then .lt else if Text.before right left then .gt else .eq

inductive Transport where
  | tcp
  | udp
  deriving DecidableEq, Repr

def Transport.name : Transport → String
  | .tcp => "tcp"
  | .udp => "udp"

/-- The address that stands for all addresses of a family. -/
def wildcardAddr : Family → String
  | .v4 => "0.0.0.0"
  | .v6 => "::"

structure BindAddress where
  family : Family
  addr : String
  wildcard : Bool
  canonical : wildcard = decide (addr = wildcardAddr family)
  shaped : family = .v4 → isIPv4 addr.toList = true
  deriving DecidableEq, Repr

structure SocketReservation where
  key : String
  protocol : ListenerProtocol
  bind : String
  port : Nat
  deriving DecidableEq, Repr

structure SocketConflict where
  a : String
  b : String
  reason : String
  deriving DecidableEq, Repr

/-- The refusal `invalid_bind_address`. -/
structure InvalidBindAddress where
  message : String
  deriving DecidableEq, Repr

/-! ## Transports and addresses -/

def transportsOf : ListenerProtocol → List Transport
  | .udp => [.udp]
  | _ => [.tcp]

def transportOf (protocol : ListenerProtocol) : Transport :=
  (transportsOf protocol).headD .tcp

def transportSetsOverlap (left right : List Transport) : Bool :=
  right.any fun transport => transport ∈ left

def sharesTransport (left right : ListenerProtocol) : Bool :=
  transportSetsOverlap (transportsOf left) (transportsOf right)

/-- `V4_MAPPED` -/
def v4Mapped (input : List Char) : Option (List Char) :=
  if (input.take 7).map Char.toLower = "::ffff:".toList ∧
      Route.looksLikeIpv4 (input.drop 7) = true then
    some (input.drop 7)
  else none

variable (platform : Platform)

def normalizeBind (input : String) : Except InvalidBindAddress BindAddress :=
  if input.toList = [] then .error ⟨"바인드 주소가 비어 있다"⟩
  else
    let candidate := ((v4Mapped input.toList).map String.ofList).getD input
    match version : ipVersion candidate with
    | some .v4 =>
        .ok ⟨.v4, candidate, candidate = "0.0.0.0", rfl, fun _ => ipVersion_v4 version⟩
    | some .v6 =>
        match platform.canonicalV6 candidate with
        | some canonical => .ok ⟨.v6, canonical, canonical = "::", rfl, nofun⟩
        | none => .error ⟨"IPv6 주소를 정규화할 수 없다: " ++ input⟩
    | none => .error ⟨"IP 주소가 아니다: " ++ JsonText.quoted input⟩

/-! ## Overlapping reservations -/

inductive Context where
  | http
  | stream
  deriving DecidableEq, Repr

/-- The context whose wildcard socket also serves specific addresses. -/
def contextOf : ListenerProtocol → Option Context
  | .http | .https => some .http
  | .tcp | .tlsPassthrough => some .stream
  | .udp => none

def sharesWildcardSocket (left right : ListenerProtocol) : Bool :=
  (contextOf left).isSome && contextOf left = contextOf right

def socketsOverlap (left right : SocketReservation) : Bool :=
  if left.key = right.key then false
  else if left.port ≠ right.port then false
  else if !sharesTransport left.protocol right.protocol then false
  else
    match normalizeBind platform left.bind, normalizeBind platform right.bind with
    | .ok x, .ok y =>
        if x.family ≠ y.family then false
        else if x.wildcard && y.wildcard then true
        else if !x.wildcard && !y.wildcard then x.addr = y.addr
        else !sharesWildcardSocket left.protocol right.protocol
    | _, _ => false

def pairsOf {α : Type} : List α → List (α × α)
  | [] => []
  | first :: rest => rest.map (first, ·) ++ pairsOf rest

def findSocketConflicts (reservations : List SocketReservation) : List SocketConflict :=
  (pairsOf (sortedBy SocketReservation.key reservations)).filterMap fun (left, right) =>
    if socketsOverlap platform left right then
      some ⟨left.key, right.key,
        (transportOf left.protocol).name ++ "/" ++ toString left.port ++ " 에서 " ++
          left.bind ++ " 와 " ++ right.bind ++ " 가 겹친다"⟩
    else none

/-! ## The reservations of a model -/

def redirectKeyOf (listenerKey : String) : String := listenerKey ++ ":http"

/-- The plain listener that redirects to an https listener. -/
def redirectListenerOf (listener : Listener) : Option Listener :=
  match listener.body with
  | .https body =>
      body.httpRedirect.map fun port =>
        { key := redirectKeyOf listener.key, bind := listener.bind, port,
          enabled := listener.enabled, sourceAllow := listener.sourceAllow,
          body := .http { http := some { defaultAction := some .reject }, hosts := body.hosts } }
  | _ => none

def withRedirectListeners (listeners : List Listener) : List Listener :=
  listeners ++ listeners.filterMap redirectListenerOf

/-- Whether a listener has an address that the checks can read. -/
def hasBind (listener : Listener) : Bool := (normalizeBind platform listener.bind).toBool

/-- The reservations that the validator of a model collects. -/
def reservationsOf (listeners : List Listener) : List SocketReservation :=
  (listeners.filter fun listener => hasBind platform listener && listener.enabled).map
      (fun listener => ⟨listener.key, protocolOf listener.body, listener.bind, listener.port⟩) ++
    listeners.filterMap fun listener =>
      (redirectListenerOf listener).bind fun redirect =>
        if !listener.enabled || !hasBind platform listener then none
        else some ⟨redirect.key, .http, redirect.bind, redirect.port⟩

variable {platform}

theorem mem_pairsOf {α : Type} {items : List α} {relation : α → α → Prop} :
    (∀ pair ∈ pairsOf items, relation pair.1 pair.2) ↔ items.Pairwise relation := by
  induction items with
  | nil => simp [pairsOf]
  | cons first rest induction =>
      simp only [pairsOf, List.mem_append, List.mem_map, or_imp, forall_and, induction,
        List.pairwise_cons]
      simp

theorem sharesTransport_iff {left right : ListenerProtocol} :
    sharesTransport left right = true ↔ transportOf left = transportOf right := by
  cases left <;> cases right <;> decide

end Validate

end Barycenter
