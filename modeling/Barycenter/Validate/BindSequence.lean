import Barycenter.Foundation.Acquisition
import Barycenter.Validate.BindTransition

/-!
# The binds of a reload

The engine opens the sockets of a generation one after another.  Within one
context of its configuration a wildcard TCP socket takes in the specific
addresses of its port; UDP sockets are opened for each address.  A socket that
is open from the generation before is kept, and a bind fails when an open socket
of the same transport overlaps it.

The two checks of a plan decide the TCP part of a reload exactly.  They ask more
of one generation than the engine, for no two listeners may name one address,
and they do not compare the UDP sockets of two generations.
-/

namespace Barycenter

namespace Validate

open Config
open Store (ListenerProtocol protocolOf)

variable (platform : Platform)

structure Claimed where
  protocol : ListenerProtocol
  bound : Bound
  deriving DecidableEq, Repr

/-- The sockets that the enabled listeners and their redirects ask for. -/
def claimed (listeners : List Listener) : List Claimed :=
  (withRedirectListeners listeners).filterMap fun listener =>
    if listener.enabled then
      (boundOf platform listener).map fun bound => ⟨protocolOf listener.body, bound⟩
    else none

/-- The sockets that the listeners of one context ask for; UDP listeners have none. -/
def claimedIn (context : Option Context) (listeners : List Listener) : List Bound :=
  ((claimed platform listeners).filter fun claim =>
    contextOf claim.protocol = context).map Claimed.bound

structure Socket where
  transport : Transport
  bound : Bound
  deriving DecidableEq, Repr

def clash (left right : Socket) : Bool :=
  left.transport = right.transport && left.bound.group = right.bound.group &&
    (left.bound.addr = right.bound.addr || left.bound.wildcard || right.bound.wildcard)

def tcpSockets (listeners : List Listener) : List Socket :=
  (exposed (claimedIn platform (some .http) listeners) ++
    exposed (claimedIn platform (some .stream) listeners)).map (Socket.mk .tcp)

def udpSockets (listeners : List Listener) : List Socket :=
  (claimedIn platform none listeners).dedup.map (Socket.mk .udp)

/-- The sockets that are open after a generation was started from nothing. -/
def coldStart (sockets : List Socket) : Option (List Socket) :=
  Acquisition.acquireAll clash [] [] sockets

/-- The sockets that are open when those of the new generation were bound. -/
def rebind (before after : List Socket) : Option (List Socket) :=
  Acquisition.acquireAll clash before before after

def reload (before after : List Listener) : Option (List Socket) :=
  rebind (tcpSockets platform before ++ udpSockets platform before)
    (tcpSockets platform after ++ udpSockets platform after)

def Exclusive (listeners : List Listener) : Prop :=
  (claimed platform listeners).Pairwise fun left right =>
    ¬(transportOf left.protocol = transportOf right.protocol ∧ left.bound = right.bound)

/-- A wildcard and a specific address that no socket serves both. -/
def Mixed (left right : Claimed) : Prop :=
  transportOf left.protocol = transportOf right.protocol ∧
    left.bound.group = right.bound.group ∧ left.bound ≠ right.bound ∧
    (left.bound.wildcard = true ∨ right.bound.wildcard = true) ∧
    sharesWildcardSocket left.protocol right.protocol = false

def WellKeyed (listeners : List Listener) : Prop :=
  (listeners.map Listener.key).Nodup ∧ ∀ listener ∈ listeners, ':' ∉ listener.key.toList

variable {platform}

/-! ## The two parts of a reload -/

theorem clash_symm (left right : Socket) : clash left right = clash right left := by
  simp only [clash, eq_comm (a := left.transport), eq_comm (a := left.bound.group),
    eq_comm (a := left.bound.addr), Bool.or_assoc, Bool.or_comm left.bound.wildcard]

variable {listeners : List Listener}

theorem tcpSockets_transport {socket : Socket}
    (member : socket ∈ tcpSockets platform listeners) : socket.transport = .tcp := by
  obtain ⟨_, _, rfl⟩ := List.mem_map.mp member
  rfl

/-! ## What the check of one generation says -/

def reservationOf (listener : Listener) : SocketReservation :=
  ⟨listener.key, protocolOf listener.body, listener.bind, listener.port⟩

variable {listener : Listener}

theorem redirectListenerOf_some {redirect : Listener}
    (redirects : redirectListenerOf listener = some redirect) :
    redirect.key = redirectKeyOf listener.key ∧ redirect.bind = listener.bind ∧
      redirect.enabled = listener.enabled ∧ protocolOf redirect.body = .http := by
  cases kind : listener.body <;> simp only [redirectListenerOf, kind] at redirects
  case https body =>
    obtain ⟨port, -, rfl⟩ := Option.map_eq_some_iff.mp redirects
    exact ⟨rfl, rfl, rfl, rfl⟩
  all_goals cases redirects

theorem reservationsOf_eq (listeners : List Listener) :
    reservationsOf platform listeners =
      ((withRedirectListeners listeners).filter fun listener =>
        hasBind platform listener && listener.enabled).map reservationOf := by
  rw [reservationsOf, withRedirectListeners, List.filter_append, List.map_append,
    List.filter_filterMap, List.map_filterMap]
  congr 1
  apply List.filterMap_congr
  intro listener _
  cases redirects : redirectListenerOf listener with
  | none => rfl
  | some redirect =>
      obtain ⟨-, bind, enabled, protocol⟩ := redirectListenerOf_some redirects
      have sameBind : hasBind platform redirect = hasBind platform listener := by
        rw [hasBind, bind, hasBind]
      cases isEnabled : listener.enabled <;> cases readable : hasBind platform listener <;>
        simp [isEnabled, readable, enabled, sameBind, reservationOf, protocol]

theorem reservationKeys_nodup (keyed : WellKeyed listeners) :
    ((reservationsOf platform listeners).map SocketReservation.key).Nodup := by
  obtain ⟨nodup, colonFree⟩ := keyed
  have distinct := List.pairwise_map.mp nodup
  rw [reservationsOf, List.map_append, List.nodup_append]
  refine ⟨?_, ?_, ?_⟩
  · rw [List.map_map]
    exact nodup.sublist (List.filter_sublist.map _)
  · rw [List.map_filterMap, List.Nodup, List.pairwise_filterMap]
    refine distinct.imp fun different first isFirst second isSecond same => ?_
    obtain ⟨left, leftReserved, rfl⟩ := Option.map_eq_some_iff.mp isFirst
    obtain ⟨right, rightReserved, rfl⟩ := Option.map_eq_some_iff.mp isSecond
    obtain ⟨leftRedirect, leftRedirects, leftOnly⟩ := Option.bind_eq_some_iff.mp leftReserved
    obtain ⟨rightRedirect, rightRedirects, rightOnly⟩ := Option.bind_eq_some_iff.mp rightReserved
    split at leftOnly <;> cases leftOnly
    split at rightOnly <;> cases rightOnly
    simp only [(redirectListenerOf_some leftRedirects).1, (redirectListenerOf_some rightRedirects).1,
      redirectKeyOf, String.append_left_inj] at same
    exact different same
  · intro key isPlain redirected isRedirected same
    obtain ⟨plain, plainReserved, rfl⟩ := List.mem_map.mp isPlain
    obtain ⟨listener, isListener, rfl⟩ := List.mem_map.mp plainReserved
    obtain ⟨other, otherReserved, rfl⟩ := List.mem_map.mp isRedirected
    obtain ⟨origin, -, reserves⟩ := List.mem_filterMap.mp otherReserved
    obtain ⟨redirect, redirects, only⟩ := Option.bind_eq_some_iff.mp reserves
    split at only <;> cases only
    apply colonFree listener (List.mem_filter.mp isListener).1
    simp only at same
    rw [same, (redirectListenerOf_some redirects).1, redirectKeyOf, String.toList_append]
    exact List.mem_append_right _ (by decide)

/-- Two claims that the check of one generation refuses. -/
def Contend (left right : Claimed) : Prop :=
  transportOf left.protocol = transportOf right.protocol ∧
    left.bound.group = right.bound.group ∧
    (left.bound = right.bound ∨ (left.bound.wildcard = true ∨ right.bound.wildcard = true) ∧
      sharesWildcardSocket left.protocol right.protocol = false)

variable {left right : Claimed}

theorem contend_iff :
    Contend left right ↔
      transportOf left.protocol = transportOf right.protocol ∧ left.bound = right.bound ∨
        Mixed left right := by
  unfold Contend Mixed
  constructor
  · rintro ⟨transport, group, same | mixed⟩
    · exact .inl ⟨transport, same⟩
    · by_cases same : left.bound = right.bound
      · exact .inl ⟨transport, same⟩
      · exact .inr ⟨transport, group, same, mixed⟩
  · rintro (⟨transport, same⟩ | ⟨transport, group, -, mixed⟩)
    · exact ⟨transport, by rw [same], .inl same⟩
    · exact ⟨transport, group, .inr mixed⟩

variable {bound : Bound}

theorem boundOf_ok (reads : boundOf platform listener = some bound) :
    ∃ address, normalizeBind platform listener.bind = .ok address ∧
      bound.family = address.family ∧ bound.addr = address.addr ∧
      bound.wildcard = address.wildcard ∧ bound.port = listener.port := by
  unfold boundOf at reads
  split at reads
  · next address normalized =>
    cases reads
    exact ⟨address, normalized, rfl, rfl, rfl, rfl⟩
  · cases reads

theorem hasBind_iff :
    hasBind platform listener = true ↔ ∃ bound, boundOf platform listener = some bound := by
  unfold hasBind boundOf
  cases normalizeBind platform listener.bind <;> simp [Except.toBool]

theorem socketsOverlap_iff {left right : Listener} {leftBound rightBound : Bound}
    (leftReads : boundOf platform left = some leftBound)
    (rightReads : boundOf platform right = some rightBound) (keys : left.key ≠ right.key) :
    socketsOverlap platform (reservationOf left) (reservationOf right) = true ↔
      Contend ⟨protocolOf left.body, leftBound⟩ ⟨protocolOf right.body, rightBound⟩ := by
  obtain ⟨x, leftOk, leftFamily, leftAddr, leftWild, leftPort⟩ := boundOf_ok leftReads
  obtain ⟨y, rightOk, rightFamily, rightAddr, rightWild, rightPort⟩ := boundOf_ok rightReads
  have sameBound : leftBound = rightBound ↔
      leftBound.group = rightBound.group ∧ leftBound.addr = rightBound.addr :=
    ⟨fun same => by simp [same], fun both => Bound.ext_of_group both.1 both.2⟩
  have group : leftBound.group = rightBound.group ↔
      x.family = y.family ∧ left.port = right.port := by
    simp [Bound.group, leftFamily, rightFamily, leftPort, rightPort]
  have bothWild : x.wildcard = true → y.wildcard = true → x.family = y.family →
      x.addr = y.addr := by
    intro xWild yWild family
    rw [x.canonical, decide_eq_true_eq] at xWild
    rw [y.canonical, decide_eq_true_eq] at yWild
    rw [xWild, yWild, family]
  have oneWild : x.wildcard ≠ y.wildcard → x.family = y.family → x.addr ≠ y.addr := by
    intro different family same
    rw [x.canonical, y.canonical, family, same] at different
    exact different rfl
  simp only [Contend, sameBound, group, leftAddr, rightAddr, leftWild, rightWild,
    ← sharesTransport_iff]
  simp only [socketsOverlap, reservationOf, leftOk, rightOk, if_neg keys]
  by_cases port : left.port = right.port
  · by_cases transport : sharesTransport (protocolOf left.body) (protocolOf right.body) = true
    · by_cases family : x.family = y.family
      · cases xWild : x.wildcard <;> cases yWild : y.wildcard <;>
          simp_all
      · simp [family, port, transport]
    · simp [port, transport]
  · simp [port]

theorem boundOf_isSome_of_claim {claim : Claimed}
    (claims : (if listener.enabled then
      (boundOf platform listener).map fun bound =>
        (⟨protocolOf listener.body, bound⟩ : Claimed) else none) = some claim) :
    listener.enabled = true ∧ ∃ bound, boundOf platform listener = some bound ∧
      claim = ⟨protocolOf listener.body, bound⟩ := by
  split at claims
  · next enabled =>
    obtain ⟨bound, reads, rfl⟩ := Option.map_eq_some_iff.mp claims
    exact ⟨enabled, bound, reads, rfl⟩
  · cases claims

theorem socketsOverlap_symm (left right : SocketReservation) :
    socketsOverlap platform left right = socketsOverlap platform right left := by
  have shared : sharesTransport left.protocol right.protocol =
      sharesTransport right.protocol left.protocol := by
    rw [Bool.eq_iff_iff, sharesTransport_iff, sharesTransport_iff, eq_comm]
  have wildcards : sharesWildcardSocket left.protocol right.protocol =
      sharesWildcardSocket right.protocol left.protocol := by
    cases left.protocol <;> cases right.protocol <;> rfl
  simp only [socketsOverlap, eq_comm (a := left.key), ne_comm (a := left.port), shared, wildcards]
  cases normalizeBind platform left.bind <;> cases normalizeBind platform right.bind <;> try rfl
  next x y =>
    simp only [ne_comm (a := x.family), Bool.and_comm x.wildcard, Bool.and_comm (!x.wildcard),
      eq_comm (a := x.addr)]

theorem findSocketConflicts_eq_nil {reservations : List SocketReservation} :
    findSocketConflicts platform reservations = [] ↔
      reservations.Pairwise fun left right => socketsOverlap platform left right = false := by
  have symmetric : ∀ {left right : SocketReservation},
      socketsOverlap platform left right = false → socketsOverlap platform right left = false :=
    fun apart => (socketsOverlap_symm _ _).trans apart
  have permutation : (sortedBy SocketReservation.key reservations).Perm reservations :=
    List.mergeSort_perm _ _
  rw [← permutation.pairwise_iff symmetric, ← mem_pairsOf]
  simp [findSocketConflicts, List.filterMap_eq_nil_iff]

theorem findSocketConflicts_nil_iff (keyed : WellKeyed listeners) :
    findSocketConflicts platform (reservationsOf platform listeners) = [] ↔
      (claimed platform listeners).Pairwise fun left right => ¬Contend left right := by
  have keys : ((reservationsOf platform listeners).map SocketReservation.key).Nodup :=
    reservationKeys_nodup keyed
  rw [findSocketConflicts_eq_nil, claimed, List.pairwise_filterMap]
  rw [reservationsOf_eq, List.map_map, List.Nodup, List.pairwise_map, List.pairwise_filter] at keys
  rw [reservationsOf_eq, List.pairwise_map, List.pairwise_filter]
  constructor
  · intro clear
    refine keys.imp₂ ?_ clear
    intro left right different apart leftClaim leftClaims rightClaim rightClaims contend
    obtain ⟨leftEnabled, leftBound, leftReads, rfl⟩ := boundOf_isSome_of_claim leftClaims
    obtain ⟨rightEnabled, rightBound, rightReads, rfl⟩ := boundOf_isSome_of_claim rightClaims
    have leftActive : (hasBind platform left && left.enabled) = true := by
      simp [leftEnabled, hasBind_iff.mpr ⟨_, leftReads⟩]
    have rightActive : (hasBind platform right && right.enabled) = true := by
      simp [rightEnabled, hasBind_iff.mpr ⟨_, rightReads⟩]
    have overlaps := (socketsOverlap_iff leftReads rightReads
      (different leftActive rightActive)).mpr contend
    rw [apart leftActive rightActive] at overlaps
    cases overlaps
  · intro clear
    refine keys.imp₂ ?_ clear
    intro left right different apart leftActive rightActive
    by_contra overlaps
    have active : ∀ {listener : Listener}, (hasBind platform listener && listener.enabled) = true →
        listener.enabled = true ∧ ∃ bound, boundOf platform listener = some bound := by
      intro listener isActive
      rw [Bool.and_eq_true] at isActive
      exact ⟨isActive.2, hasBind_iff.mp isActive.1⟩
    obtain ⟨leftEnabled, leftBound, leftReads⟩ := active leftActive
    obtain ⟨rightEnabled, rightBound, rightReads⟩ := active rightActive
    refine apart _ ?_ _ ?_ ((socketsOverlap_iff leftReads rightReads
      (different leftActive rightActive)).mp (by simpa using overlaps))
    · simp [leftEnabled, leftReads]
    · simp [rightEnabled, rightReads]

/-! ## What the engine opens -/

theorem mem_claimedIn {context : Option Context} :
    bound ∈ claimedIn platform context listeners ↔
      ∃ claim ∈ claimed platform listeners, contextOf claim.protocol = context ∧
        claim.bound = bound := by
  simp [claimedIn, and_assoc]

theorem transportOf_context {protocol : ListenerProtocol} :
    transportOf protocol = .udp ↔ contextOf protocol = none := by
  cases protocol <;> decide

theorem sharesWildcardSocket_iff {left right : ListenerProtocol} :
    sharesWildcardSocket left right = true ↔
      ∃ context, contextOf left = some context ∧ contextOf right = some context := by
  cases left <;> cases right <;> simp [sharesWildcardSocket, contextOf]

/-- The TCP sockets that all listeners together ask for. -/
def claimedTcp (platform : Platform) (listeners : List Listener) : List Bound :=
  ((claimed platform listeners).filter fun claim =>
    transportOf claim.protocol = .tcp).map Claimed.bound

theorem mem_claimedTcp :
    bound ∈ claimedTcp platform listeners ↔
      bound ∈ claimedIn platform (some .http) listeners ∨
        bound ∈ claimedIn platform (some .stream) listeners := by
  have tcp : ∀ protocol : ListenerProtocol, transportOf protocol = .tcp ↔
      contextOf protocol = some .http ∨ contextOf protocol = some .stream := by
    intro protocol
    cases protocol <;> decide
  simp only [claimedTcp, List.mem_map, List.mem_filter, decide_eq_true_eq, tcp, mem_claimedIn]
  constructor
  · rintro ⟨claim, ⟨member, http | stream⟩, rfl⟩
    · exact .inl ⟨claim, member, http, rfl⟩
    · exact .inr ⟨claim, member, stream, rfl⟩
  · rintro (⟨claim, member, http, rfl⟩ | ⟨claim, member, stream, rfl⟩)
    · exact ⟨claim, ⟨member, .inl http⟩, rfl⟩
    · exact ⟨claim, ⟨member, .inr stream⟩, rfl⟩

theorem mem_boundTcpSockets :
    bound ∈ boundTcpSockets platform listeners ↔ bound ∈ exposed (claimedTcp platform listeners) := by
  have same : ((withRedirectListeners listeners).filterMap fun listener =>
      if !listener.enabled || transportOf (protocolOf listener.body) ≠ .tcp then none
      else boundOf platform listener) = claimedTcp platform listeners := by
    rw [claimedTcp, claimed, List.filter_filterMap, List.map_filterMap]
    apply List.filterMap_congr
    intro listener _
    cases listener.enabled <;> cases boundOf platform listener <;>
      by_cases tcp : transportOf (protocolOf listener.body) = .tcp <;>
        simp [tcp, Option.filter]
  rw [boundTcpSockets, List.mem_insertionSort, same, mem_boundGroups]

/-- Across the two contexts of the engine no socket stands in the way of another. -/
def ContextsApart (platform : Platform) (listeners : List Listener) : Prop :=
  ∀ http ∈ exposed (claimedIn platform (some .http) listeners),
    ∀ stream ∈ exposed (claimedIn platform (some .stream) listeners),
      clash ⟨.tcp, http⟩ ⟨.tcp, stream⟩ = false

variable {bounds : List Bound}

theorem wildcard_exposed (member : bound ∈ bounds)
    (wild : bound.wildcard = true) : bound ∈ exposed bounds :=
  mem_exposed.mpr ⟨member, fun _ _ group otherWild =>
    Bound.wildcard_unique otherWild wild group⟩

theorem clash_eq_false_iff {transport : Transport} {left right : Bound} :
    clash ⟨transport, left⟩ ⟨transport, right⟩ = false ↔
      (left.group = right.group →
        left ≠ right ∧ left.wildcard = false ∧ right.wildcard = false) := by
  have sameAddr : left.group = right.group → (left.addr = right.addr ↔ left = right) :=
    fun group => ⟨Bound.ext_of_group group, fun same => by rw [same]⟩
  by_cases group : left.group = right.group
  · simp [clash, group, sameAddr, and_assoc]
  · simp [clash, group]

/-- Where the contexts are apart, the sockets compared are those the engine opens. -/
theorem mem_tcpSockets (apart : ContextsApart platform listeners)
 :
    ⟨.tcp, bound⟩ ∈ tcpSockets platform listeners ↔ bound ∈ boundTcpSockets platform listeners := by
  have opened : (⟨.tcp, bound⟩ : Socket) ∈ tcpSockets platform listeners ↔
      bound ∈ exposed (claimedIn platform (some .http) listeners) ∨
        bound ∈ exposed (claimedIn platform (some .stream) listeners) := by
    simp [tcpSockets]
  rw [opened, mem_boundTcpSockets, @mem_exposed (claimedTcp platform listeners),
    mem_claimedTcp]
  constructor
  · rintro (inHttp | inStream)
    · obtain ⟨member, unique⟩ := mem_exposed.mp inHttp
      refine ⟨.inl member, fun other isTcp group wild => ?_⟩
      rcases mem_claimedTcp.mp isTcp with otherHttp | otherStream
      · exact unique other otherHttp group wild
      · have clear := apart bound inHttp other (wildcard_exposed otherStream wild)
        rw [(clash_eq_false_iff.mp clear group.symm).2.2] at wild
        cases wild
    · obtain ⟨member, unique⟩ := mem_exposed.mp inStream
      refine ⟨.inr member, fun other isTcp group wild => ?_⟩
      rcases mem_claimedTcp.mp isTcp with otherHttp | otherStream
      · have clear := apart other (wildcard_exposed otherHttp wild) bound inStream
        rw [(clash_eq_false_iff.mp clear group).2.1] at wild
        cases wild
      · exact unique other otherStream group wild
  · rintro ⟨inHttp | inStream, unique⟩
    · exact .inl (mem_exposed.mpr ⟨inHttp, fun other member =>
        unique other (mem_claimedTcp.mpr (.inl member))⟩)
    · exact .inr (mem_exposed.mpr ⟨inStream, fun other member =>
        unique other (mem_claimedTcp.mpr (.inr member))⟩)

theorem exposed_apart {left right : Bound} (isLeft : left ∈ exposed bounds)
    (isRight : right ∈ exposed bounds) (different : left ≠ right) :
    clash ⟨.tcp, left⟩ ⟨.tcp, right⟩ = false := by
  obtain ⟨leftMember, leftUnique⟩ := mem_exposed.mp isLeft
  obtain ⟨rightMember, rightUnique⟩ := mem_exposed.mp isRight
  refine clash_eq_false_iff.mpr fun group => ⟨different, ?_, ?_⟩
  · by_contra wild
    exact different (rightUnique left leftMember group (by simpa using wild))
  · by_contra wild
    exact different (leftUnique right rightMember group.symm (by simpa using wild)).symm

theorem coldStart_tcp_iff :
    (coldStart (tcpSockets platform listeners)).isSome ↔ ContextsApart platform listeners := by
  have oneContext : ∀ bounds : List Bound,
      (exposed bounds).Pairwise fun earlier later =>
        clash ⟨.tcp, later⟩ ⟨.tcp, earlier⟩ = false := by
    intro bounds
    have distinct : (exposed bounds).Nodup := List.nodup_dedup _
    exact distinct.imp_of_mem fun isEarlier isLater different =>
      exposed_apart isLater isEarlier (Ne.symm different)
  rw [coldStart, Acquisition.acquireAll_cold_iff, tcpSockets, List.pairwise_map,
    List.pairwise_append]
  constructor
  · rintro ⟨-, -, apart⟩ http isHttp stream isStream
    rw [clash_symm]
    exact apart http isHttp stream isStream
  · intro apart
    refine ⟨oneContext _, oneContext _, fun http isHttp stream isStream => ?_⟩
    rw [clash_symm]
    exact apart http isHttp stream isStream

/-! ## What the two checks decide -/

theorem Exclusive.bound_ne (exclusive : Exclusive platform listeners)
    (isLeft : left ∈ claimed platform listeners)
    (isRight : right ∈ claimed platform listeners) (different : left ≠ right)
    (transport : transportOf left.protocol = transportOf right.protocol) :
    left.bound ≠ right.bound := by
  have symmetric : Std.Symm fun left right : Claimed =>
      ¬(transportOf left.protocol = transportOf right.protocol ∧ left.bound = right.bound) :=
    ⟨fun _ _ apart both => apart ⟨both.1.symm, both.2.symm⟩⟩
  have apart := List.Pairwise.forall exclusive isLeft isRight different
  exact fun same => apart ⟨transport, same⟩

theorem transportOf_tcp {protocol : ListenerProtocol} {context : Context}
    (inContext : contextOf protocol = some context) : transportOf protocol = .tcp := by
  cases protocol <;> first | rfl | cases inContext

theorem contextsApart_of_checks (exclusive : Exclusive platform listeners)
    (unmixed : ∀ left ∈ claimed platform listeners, ∀ right ∈ claimed platform listeners,
      ¬Mixed left right) : ContextsApart platform listeners := by
  intro http isHttp stream isStream
  obtain ⟨left, isLeft, leftContext, rfl⟩ := mem_claimedIn.mp (mem_exposed.mp isHttp).1
  obtain ⟨right, isRight, rightContext, rfl⟩ := mem_claimedIn.mp (mem_exposed.mp isStream).1
  have transport : transportOf left.protocol = transportOf right.protocol :=
    (transportOf_tcp leftContext).trans (transportOf_tcp rightContext).symm
  have different : left ≠ right := by
    rintro rfl
    rw [leftContext] at rightContext
    cases rightContext
  have bounds := exclusive.bound_ne isLeft isRight different transport
  have unshared : sharesWildcardSocket left.protocol right.protocol = false := by
    simp [sharesWildcardSocket, leftContext, rightContext]
  refine clash_eq_false_iff.mpr fun group => ⟨bounds, ?_, ?_⟩
  · by_contra wild
    exact unmixed left isLeft right isRight
      ⟨transport, group, bounds, .inl (by simpa using wild), unshared⟩
  · by_contra wild
    exact unmixed left isLeft right isRight
      ⟨transport, group, bounds, .inr (by simpa using wild), unshared⟩

variable {before after : List Listener}

theorem bindTransitionConflicts_nil_iff :
    bindTransitionConflicts platform before after = [] ↔
      ∀ bound ∈ boundTcpSockets platform after, bound ∉ boundTcpSockets platform before →
        ∀ other ∈ boundTcpSockets platform before, clash ⟨.tcp, bound⟩ ⟨.tcp, other⟩ = false := by
  simp only [bindTransitionConflicts, List.filterMap_eq_nil_iff]
  refine forall_congr' fun bound => imp_congr_right fun _ => ?_
  have named : socketName bound ∈ (boundTcpSockets platform before).map socketName ↔
      bound ∈ boundTcpSockets platform before :=
    List.mem_map_of_injective fun _ _ => socketName_injective
  rw [ite_eq_left_iff, named]
  refine imp_congr_right fun closed => ?_
  simp only [ite_eq_left_iff, reduceCtorEq, imp_false, not_not, List.filter_eq_nil_iff]
  refine forall_congr' fun other => imp_congr_right fun opened => ?_
  have different : bound ≠ other := fun same => closed (same ▸ opened)
  rw [clash_eq_false_iff]
  simp only [Bool.and_eq_true, decide_eq_true_eq, Bool.or_eq_true, not_and, not_or,
    Bool.not_eq_true, Bound.group, Prod.mk.injEq, and_imp, eq_comm (a := bound.family),
    eq_comm (a := bound.port)]
  exact forall_congr' fun _ => forall_congr' fun _ =>
    ⟨fun both => ⟨different, both.2, both.1⟩, fun all => ⟨all.2.2, all.2.1⟩⟩

theorem mem_tcpSockets_context {context : Context}
    (member : bound ∈ exposed (claimedIn platform (some context) listeners)) :
    ⟨.tcp, bound⟩ ∈ tcpSockets platform listeners := by
  refine List.mem_map_of_mem (List.mem_append.mpr ?_)
  cases context with
  | http => exact .inl member
  | stream => exact .inr member

/-- A reload of TCP sockets that succeeds leaves sockets that a cold start could open. -/
theorem started_of_rebind (started : (coldStart (tcpSockets platform before)).isSome)
    (rebound : (rebind (tcpSockets platform before) (tcpSockets platform after)).isSome)
    (exclusive : Exclusive platform after) :
    (coldStart (tcpSockets platform after)).isSome := by
  refine coldStart_tcp_iff.mpr fun http isHttp stream isStream => ?_
  obtain ⟨left, isLeft, leftContext, rfl⟩ := mem_claimedIn.mp (mem_exposed.mp isHttp).1
  obtain ⟨right, isRight, rightContext, rfl⟩ := mem_claimedIn.mp (mem_exposed.mp isStream).1
  have different : left ≠ right := by
    rintro rfl
    rw [leftContext] at rightContext
    cases rightContext
  have bounds := exclusive.bound_ne isLeft isRight different
    ((transportOf_tcp leftContext).trans (transportOf_tcp rightContext).symm)
  exact Acquisition.apart_of_acquired clash_symm started rebound
    (mem_tcpSockets_context isHttp) (mem_tcpSockets_context isStream)
    fun same => bounds (congrArg Socket.bound same)

theorem rebind_tcp_iff (started : (coldStart (tcpSockets platform before)).isSome)
    (startable : (coldStart (tcpSockets platform after)).isSome) :
    (rebind (tcpSockets platform before) (tcpSockets platform after)).isSome ↔
      bindTransitionConflicts platform before after = [] := by
  rw [rebind, Acquisition.acquireAll_iff_of_cold startable, bindTransitionConflicts_nil_iff]
  have opened : ∀ bound : Bound, ⟨.tcp, bound⟩ ∈ tcpSockets platform before ↔
      bound ∈ boundTcpSockets platform before :=
    fun bound => mem_tcpSockets (coldStart_tcp_iff.mp started)
  have opens : ∀ bound : Bound, ⟨.tcp, bound⟩ ∈ tcpSockets platform after ↔
      bound ∈ boundTcpSockets platform after :=
    fun bound => mem_tcpSockets (coldStart_tcp_iff.mp startable)
  constructor
  · intro clear bound isNew closed other isOpen
    exact clear ⟨.tcp, bound⟩ ((opens bound).mpr isNew) (mt (opened bound).mp closed)
      ⟨.tcp, other⟩ ((opened other).mpr isOpen)
  · rintro clear ⟨transport, bound⟩ isNew closed ⟨otherTransport, other⟩ isOpen
    have tcp : transport = .tcp := tcpSockets_transport isNew
    have otherTcp : otherTransport = .tcp := tcpSockets_transport isOpen
    subst tcp otherTcp
    exact clear bound ((opens bound).mp isNew) (mt (opened bound).mpr closed) other
      ((opened other).mp isOpen)

/-! ## What the check of one generation decides -/

theorem exists_exposed (member : bound ∈ bounds) :
    ∃ opened ∈ exposed bounds, opened.group = bound.group := by
  by_cases covered : ∃ wild ∈ bounds, wild.group = bound.group ∧ wild.wildcard = true
  · obtain ⟨wild, isMember, group, isWild⟩ := covered
    exact ⟨wild, wildcard_exposed isMember isWild, group⟩
  · refine ⟨bound, mem_exposed.mpr ⟨member, fun other isMember group isWild => ?_⟩, rfl⟩
    exact absurd ⟨other, isMember, group, isWild⟩ covered

theorem no_wildcard_across (apart : ContextsApart platform listeners)
    {left right : Context} (different : left ≠ right) {wild other : Bound}
    (isWild : wild.wildcard = true) (inLeft : wild ∈ claimedIn platform (some left) listeners)
    (inRight : other ∈ claimedIn platform (some right) listeners) : wild.group ≠ other.group := by
  intro group
  obtain ⟨opened, isOpened, sameGroup⟩ := exists_exposed inRight
  have wildOpened := wildcard_exposed inLeft isWild
  cases left <;> cases right
  case http.stream =>
    have clear := apart wild wildOpened opened isOpened
    rw [(clash_eq_false_iff.mp clear (group.trans sameGroup.symm)).2.1] at isWild
    cases isWild
  case stream.http =>
    have clear := apart opened isOpened wild wildOpened
    rw [(clash_eq_false_iff.mp clear (sameGroup.trans group.symm)).2.2] at isWild
    cases isWild
  all_goals exact different rfl

theorem unmixed_tcp (apart : ContextsApart platform listeners)
    (isLeft : left ∈ claimed platform listeners)
    (isRight : right ∈ claimed platform listeners) (tcp : transportOf left.protocol = .tcp) :
    ¬Mixed left right := by
  rintro ⟨transport, group, -, wild, unshared⟩
  have inContext : ∀ claim : Claimed, transportOf claim.protocol = .tcp →
      ∃ context, contextOf claim.protocol = some context := by
    intro claim isTcp
    refine Option.ne_none_iff_exists'.mp fun none => ?_
    rw [transportOf_context.mpr none] at isTcp
    cases isTcp
  obtain ⟨leftContext, leftIn⟩ := inContext left tcp
  obtain ⟨rightContext, rightIn⟩ := inContext right (transport ▸ tcp)
  have different : leftContext ≠ rightContext := by
    rintro rfl
    rw [sharesWildcardSocket_iff.mpr ⟨leftContext, leftIn, rightIn⟩] at unshared
    cases unshared
  have leftMember := mem_claimedIn.mpr ⟨left, isLeft, leftIn, rfl⟩
  have rightMember := mem_claimedIn.mpr ⟨right, isRight, rightIn, rfl⟩
  rcases wild with leftWild | rightWild
  · exact no_wildcard_across apart different leftWild leftMember rightMember group
  · exact no_wildcard_across apart different.symm rightWild rightMember leftMember group.symm

theorem coldStart_udp_iff :
    (coldStart (udpSockets platform listeners)).isSome ↔
      ∀ left ∈ claimed platform listeners, ∀ right ∈ claimed platform listeners,
        transportOf left.protocol = .udp → ¬Mixed left right := by
  rw [coldStart, Acquisition.acquireAll_cold_iff, udpSockets, List.pairwise_map]
  have symmetric : Std.Symm fun earlier later : Bound =>
      clash ⟨.udp, later⟩ ⟨.udp, earlier⟩ = false :=
    ⟨fun _ _ apart => (clash_symm _ _).trans apart⟩
  constructor
  · rintro apart left isLeft right isRight udp ⟨transport, group, different, wild, -⟩
    have isUdp : ∀ claim ∈ claimed platform listeners, transportOf claim.protocol = .udp →
        claim.bound ∈ (claimedIn platform none listeners).dedup := fun claim member udp =>
      List.mem_dedup.mpr
        (mem_claimedIn.mpr ⟨claim, member, transportOf_context.mp udp, rfl⟩)
    have clear := apart.forall (isUdp left isLeft udp) (isUdp right isRight (transport ▸ udp))
      different
    obtain ⟨-, rightSpecific, leftSpecific⟩ := clash_eq_false_iff.mp clear group.symm
    simp [leftSpecific, rightSpecific] at wild
  · intro unmixed
    refine (List.nodup_dedup _).imp_of_mem fun {earlier later} isEarlier isLater different => ?_
    obtain ⟨left, isLeft, leftUdp, rfl⟩ := mem_claimedIn.mp (List.mem_dedup.mp isEarlier)
    obtain ⟨right, isRight, rightUdp, rfl⟩ := mem_claimedIn.mp (List.mem_dedup.mp isLater)
    have transport : transportOf left.protocol = transportOf right.protocol :=
      (transportOf_context.mpr leftUdp).trans (transportOf_context.mpr rightUdp).symm
    have unshared : sharesWildcardSocket left.protocol right.protocol = false := by
      simp [sharesWildcardSocket, leftUdp]
    refine clash_eq_false_iff.mpr fun group => ⟨different.symm, ?_, ?_⟩
    · by_contra wild
      exact unmixed left isLeft right isRight (transportOf_context.mpr leftUdp)
        ⟨transport, group.symm, different, .inr (by simpa using wild), unshared⟩
    · by_contra wild
      exact unmixed left isLeft right isRight (transportOf_context.mpr leftUdp)
        ⟨transport, group.symm, different, .inl (by simpa using wild), unshared⟩

/-- What the check of one generation refuses is two claims to one socket or a mixture. -/
theorem uncontended_iff :
    ((claimed platform listeners).Pairwise fun left right => ¬Contend left right) ↔
      Exclusive platform listeners ∧
        ∀ left ∈ claimed platform listeners, ∀ right ∈ claimed platform listeners,
          ¬Mixed left right := by
  have symmetric : Std.Symm fun left right : Claimed => ¬Mixed left right := by
    refine ⟨fun left right unmixed mixed => unmixed ?_⟩
    obtain ⟨transport, group, different, wild, unshared⟩ := mixed
    refine ⟨transport.symm, group.symm, different.symm, wild.symm, ?_⟩
    rw [← Bool.not_eq_true, sharesWildcardSocket_iff] at unshared ⊢
    rintro ⟨context, leftIn, rightIn⟩
    exact unshared ⟨context, rightIn, leftIn⟩
  simp only [contend_iff, not_or, List.pairwise_and_iff]
  refine and_congr_right fun _ => ⟨fun unmixed => ?_, fun unmixed => ?_⟩
  · exact List.Pairwise.forall_of_forall (fun claim _ mixed => mixed.2.2.1 rfl) unmixed
  · exact List.pairwise_of_forall_mem_list fun left isLeft right => unmixed left isLeft right

/--
The two checks find nothing exactly when no two listeners of the new generation
ask for one socket, its UDP sockets can stand side by side, and the TCP binds of
the reload succeed.
-/
theorem bindChecks_exact (platform : Platform) {before after : List Listener}
    (keyed : WellKeyed after) (started : (coldStart (tcpSockets platform before)).isSome) :
    (findSocketConflicts platform (reservationsOf platform after) = [] ∧
        bindTransitionConflicts platform before after = []) ↔
      Exclusive platform after ∧ (coldStart (udpSockets platform after)).isSome ∧
        (rebind (tcpSockets platform before) (tcpSockets platform after)).isSome := by
  rw [findSocketConflicts_nil_iff keyed, uncontended_iff]
  constructor
  · rintro ⟨⟨exclusive, unmixed⟩, inherits⟩
    have startable := coldStart_tcp_iff.mpr (contextsApart_of_checks exclusive unmixed)
    exact ⟨exclusive, coldStart_udp_iff.mpr fun left isLeft right isRight _ =>
      unmixed left isLeft right isRight, (rebind_tcp_iff started startable).mpr inherits⟩
  · rintro ⟨exclusive, udp, rebound⟩
    have startable := started_of_rebind started rebound exclusive
    refine ⟨⟨exclusive, fun left isLeft right isRight => ?_⟩,
      (rebind_tcp_iff started startable).mp rebound⟩
    cases transport : transportOf left.protocol with
    | tcp => exact unmixed_tcp (coldStart_tcp_iff.mp startable) isLeft isRight transport
    | udp => exact coldStart_udp_iff.mp udp left isLeft right isRight transport

/-- Name servers that move from one address to all of them. -/
def dnsListener (bind : String) : Listener :=
  { key := "dns", bind, port := 53, enabled := true,
    body := .udp { defaultPool := "p", preset := .dns } }

def hostListener (key host bind : String) : Listener :=
  { key, bind, port := 80, enabled := true, body := .http { hosts := some [host] } }

/-- Two host listeners share a socket that a wildcard replaces. -/
theorem bindChecks_exact_hosts :
    (findSocketConflicts plainPlatform
          (reservationsOf plainPlatform [hostListener "a" "a.test" "0.0.0.0"]) = [] ∧
        bindTransitionConflicts plainPlatform
          [hostListener "a" "a.test" "10.0.0.1", hostListener "b" "b.test" "10.0.0.1"]
          [hostListener "a" "a.test" "0.0.0.0"] = []) ↔
      Exclusive plainPlatform [hostListener "a" "a.test" "0.0.0.0"] ∧
        (coldStart (udpSockets plainPlatform [hostListener "a" "a.test" "0.0.0.0"])).isSome ∧
        (rebind
          (tcpSockets plainPlatform
            [hostListener "a" "a.test" "10.0.0.1", hostListener "b" "b.test" "10.0.0.1"])
          (tcpSockets plainPlatform [hostListener "a" "a.test" "0.0.0.0"])).isSome :=
  bindChecks_exact plainPlatform (by unfold WellKeyed; decide +kernel) (by decide +kernel)

/--
The UDP sockets of two generations are not compared, and two host listeners may
share a socket that the check of one generation still reports.
-/
theorem bindChecks_inexact :
    (findSocketConflicts plainPlatform (reservationsOf plainPlatform [dnsListener "0.0.0.0"]) = [] ∧
        bindTransitionConflicts plainPlatform [dnsListener "10.0.0.1"] [dnsListener "0.0.0.0"] = [] ∧
        reload plainPlatform [dnsListener "10.0.0.1"] [dnsListener "0.0.0.0"] = none) ∧
      findSocketConflicts plainPlatform
          (reservationsOf plainPlatform
            [hostListener "a" "a.test" "0.0.0.0", hostListener "b" "b.test" "0.0.0.0"]) ≠ [] ∧
        (reload plainPlatform []
          [hostListener "a" "a.test" "0.0.0.0", hostListener "b" "b.test" "0.0.0.0"]).isSome := by
  refine ⟨⟨?_, by decide +kernel, by decide +kernel⟩, ?_, by decide +kernel⟩
  · rw [findSocketConflicts_eq_nil]
    decide +kernel
  · rw [Ne, findSocketConflicts_eq_nil]
    decide +kernel

end Validate

end Barycenter
