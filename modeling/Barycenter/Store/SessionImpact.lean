import Barycenter.Conf.Render

/-!
# The impact of a change on existing sessions

A plan says for each protocol what happens to the sessions that exist: they are
cut when their socket closes, and when the engine reloads under a limit for its
old workers.  A protocol with no affected listener is left alone, also when the
engine reloads because of another protocol.
-/

namespace Barycenter

namespace Store

open Config
open Conf (RenderedConfig proxyPool)
open Validate (inKeyOrder protocolName withRedirectListeners)

/-! ## Affected listeners -/

def socketOf (listener : Listener) : String :=
  (if protocolOf listener.body = .udp then "udp" else "tcp") ++ "://" ++ listener.bind ++ ":" ++
    toString listener.port

/-- What a listener depends on.  Its text determines the parts, so closures are
compared by their parts. -/
structure ListenerClosure where
  listener : Listener
  httpRoutes : List HttpRoute
  sniBindings : List SniCertificateBinding
  passthroughRoutes : List PassthroughRoute
  pools : List (Option Pool)
  backends : List Backend
  tlsPolicies : List (Option TlsPolicy)
  certificates : List (Option Certificate)
  engine : Option EngineSettings
  addressSets : List (Option AddressSet)
  routeSets : List (Option AddressSet)
  deriving DecidableEq

def passthroughPool : PassthroughAction → List String
  | .proxy pool => [pool]
  | .reject => []

def keySet (keys : List String) : List String := inKeyOrder id keys.eraseDups

def listenerClosure (model : Model) (listener : Listener) : ListenerClosure :=
  let httpRoutes := if listener.isHttp then
      inKeyOrder HttpRoute.key (model.httpRoutes.filter fun route => route.listener = listener.key)
    else []
  let sniBindings := if listener.isHttps then
      inKeyOrder SniCertificateBinding.key
        (model.sniBindings.filter fun binding => binding.listener = listener.key)
    else []
  let passthroughRoutes := match listener.body with
    | .tlsPassthrough _ => inKeyOrder PassthroughRoute.key
        (model.passthroughRoutes.filter fun route => route.listener = listener.key)
    | _ => []
  let pools := match listener.body with
    | .http _ | .https _ => (outcomePool (listener.http.bind HttpProfile.defaultAction)).toList ++
        (httpRoutes.flatMap routeActions).filterMap proxyPool
    | .tlsPassthrough body => passthroughRoutes.flatMap (fun route => passthroughPool route.action) ++
        (outcomePool body.onUnmatchedSni).toList ++ (outcomePool body.onNoSni).toList
    | .tcp body => [body.defaultPool]
    | .udp body => [body.defaultPool]
  let certificates :=
    (listener.tls.map RawTlsBinding.defaultCertificate).toList ++
      sniBindings.map SniCertificateBinding.certificate
  let setOf (key : String) : Option AddressSet :=
    (model.addressSets.getD []).find? fun set => set.key = key
  { listener, httpRoutes, sniBindings, passthroughRoutes,
    pools := (keySet pools).map fun key => model.pools.find? fun pool => pool.key = key
    backends := inKeyOrder Backend.key (model.backends.filter fun backend => backend.pool ∈ pools)
    tlsPolicies := (listener.tls.map RawTlsBinding.policy).toList.map fun key =>
      model.tlsPolicies.find? fun policy => policy.key = key
    certificates := (keySet certificates).map fun key =>
      model.certificates.find? fun certificate => certificate.key = key
    engine := model.engine
    addressSets := (referencedSets listener).map setOf
    routeSets := (keySet (httpRoutes.flatMap referencedSetsOfRoute)).map setOf }

inductive ListenerChange where
  | added
  | removed
  | changed
  deriving DecidableEq, Repr

structure AffectedListener where
  key : String
  protocol : ListenerProtocol
  bind : String
  port : Nat
  change : ListenerChange
  deriving DecidableEq, Repr

def affectedBy (change : ListenerChange) (listener : Listener) : AffectedListener :=
  ⟨listener.key, protocolOf listener.body, listener.bind, listener.port, change⟩

def changeAt (before after : Model) (key : String) : Option AffectedListener :=
  match lastWith Listener.key before.listeners key, lastWith Listener.key after.listeners key with
  | none, none => none
  | none, some next => some (affectedBy .added next)
  | some prev, none => some (affectedBy .removed prev)
  | some prev, some next =>
      if listenerClosure before prev = listenerClosure after next then none
      else some (affectedBy .changed next)

def affectedListeners (before after : Model) : List AffectedListener :=
  (keySet ((before.listeners ++ after.listeners).map Listener.key)).filterMap
    (changeAt before after)

/-! ## Sockets and reloads -/

/-- The sockets of a model, those of its plain redirects too. -/
def openSockets (model : Model) : List String :=
  ((withRedirectListeners model.listeners).filter Listener.enabled).map socketOf

def socketsRemoved (before after : Model) : List String :=
  keySet ((openSockets before).filter fun socket => decide (socket ∉ openSockets after))

/-- What runs now.  A digest is known when a generation is served. -/
structure ImpactBefore where
  model : Model
  conf : String
  servedDigest : Option String := none

structure ImpactAfter where
  model : Model
  rendered : RenderedConfig

def requiresReload (before : ImpactBefore) (after : ImpactAfter) : Bool :=
  match before.servedDigest with
  | some digest => digest ≠ after.rendered.digest
  | none => before.conf ≠ after.rendered.conf

/-! ## Sessions -/

inductive SessionEffect where
  | none
  | newOnly
  | mayReset
  deriving DecidableEq, Repr

structure SessionImpact where
  protocol : ListenerProtocol
  effect : SessionEffect
  why : String
  deriving DecidableEq, Repr

def sessionProtocols (before after : Model) : List ListenerProtocol :=
  inKeyOrder protocolName
    ((before.listeners ++ after.listeners).map fun listener => protocolOf listener.body).eraseDups

/-- `worker_shutdown_timeout` of the model that is applied. -/
def cutoffOf (after : Model) : Option Nat :=
  after.engine.bind EngineSettings.workerShutdownTimeoutS

section

variable (before after : Model) (affected : List AffectedListener) (removed : List String)
  (reload : Bool)

/-- The affected listeners of a protocol, by the newer of the two models. -/
def affectedOf (protocol : ListenerProtocol) : List AffectedListener :=
  affected.filter fun entry =>
    (lastWith Listener.key (before.listeners ++ after.listeners) entry.key).any fun listener =>
      protocolOf listener.body = protocol

def droppedOf (protocol : ListenerProtocol) : List AffectedListener :=
  (affectedOf before after affected protocol).filter fun entry =>
    (lastWith Listener.key before.listeners entry.key).any fun listener =>
      socketOf listener ∈ removed

def impactOn (protocol : ListenerProtocol) : SessionImpact :=
  if affectedOf before after affected protocol = [] then
    ⟨protocol, .none, "이 프로토콜의 리스너는 안 바뀐다"⟩
  else if droppedOf before after affected removed protocol ≠ [] then
    ⟨protocol, .mayReset,
      "소켓이 사라진다 (" ++
        ", ".intercalate ((droppedOf before after affected removed protocol).map
          AffectedListener.key) ++
        ") — 그 위의 연결·세션은 끊긴다"⟩
  else
    match reload, cutoffOf after with
    | true, some cutoff =>
        ⟨protocol, .mayReset,
          "reload 가 난다. worker_shutdown_timeout=" ++ toString cutoff ++
            "s 가 걸려 있어 진행 중 요청이 응답 없이 잘릴 수 있다 (§4.10)"⟩
    | true, none =>
        ⟨protocol, .newOnly,
          "reload 가 나지만 진행 중인 것은 옛 워커가 끝낸다 — 유휴 keepalive 만 닫힌다"⟩
    | false, _ =>
        ⟨protocol, .newOnly, "산출물이 같다 — 멤버십만 바뀌므로 새 연결·새 요청부터다"⟩

def sessionImpactOf : List SessionImpact :=
  (sessionProtocols before after).map (impactOn before after affected removed reload)

end

def sessionImpact (before : ImpactBefore) (after : ImpactAfter) : List SessionImpact :=
  sessionImpactOf before.model after.model (affectedListeners before.model after.model)
    (socketsRemoved before.model after.model) (requiresReload before after)

def effectOn (impacts : List SessionImpact) (protocol : ListenerProtocol) : Option SessionEffect :=
  (impacts.find? fun impact => impact.protocol = protocol).map SessionImpact.effect

/-! ## The listener with a key -/

variable {α : Type} {keyOf : α → String}

theorem lastWith_some {items : List α} {key : String} {item : α}
    (found : lastWith keyOf items key = some item) : item ∈ items ∧ keyOf item = key := by
  have member := List.mem_of_find?_eq_some found
  have same := List.find?_some found
  exact ⟨List.mem_reverse.mp member, by simpa using same⟩

theorem lastWith_append (front back : List α) (key : String) :
    lastWith keyOf (front ++ back) key = (lastWith keyOf back key).or (lastWith keyOf front key) := by
  simp [lastWith, List.find?_append]

theorem lastWith_of_unique {items : List α} (unique : (items.map keyOf).Nodup) {item : α}
    (listed : item ∈ items) : lastWith keyOf items (keyOf item) = some item := by
  cases found : lastWith keyOf items (keyOf item) with
  | none =>
      have absent := List.find?_eq_none.mp found item (List.mem_reverse.mpr listed)
      simp at absent
  | some other =>
      obtain ⟨member, same⟩ := lastWith_some found
      rw [List.inj_on_of_nodup_map unique member listed same]

/-! ## What is affected -/

theorem mem_keySet {keys : List String} {key : String} : key ∈ keySet keys ↔ key ∈ keys := by
  simp [keySet, inKeyOrder]

variable {before after : Model}

variable {entry : AffectedListener}

theorem mem_affectedListeners :
    entry ∈ affectedListeners before after ↔ changeAt before after entry.key = some entry := by
  have keyed {key : String} (change : changeAt before after key = some entry) :
      entry.key = key ∧ key ∈ (before.listeners ++ after.listeners).map Listener.key := by
    unfold changeAt at change
    split at change
    · cases change
    · rename_i next absent found
      obtain ⟨listed, same⟩ := lastWith_some found
      cases change
      exact ⟨same, List.mem_map.mpr ⟨next, List.mem_append_right _ listed, same⟩⟩
    · rename_i prev found absent
      obtain ⟨listed, same⟩ := lastWith_some found
      cases change
      exact ⟨same, List.mem_map.mpr ⟨prev, List.mem_append_left _ listed, same⟩⟩
    · rename_i prev next found foundNext
      obtain ⟨listed, same⟩ := lastWith_some foundNext
      split at change
      · cases change
      · cases change
        exact ⟨same, List.mem_map.mpr ⟨next, List.mem_append_right _ listed, same⟩⟩
  rw [affectedListeners, List.mem_filterMap]
  constructor
  · rintro ⟨key, -, change⟩
    rw [(keyed change).1]
    exact change
  · intro change
    exact ⟨entry.key, mem_keySet.mpr (keyed change).2, change⟩

theorem newest_of_affected (affected : entry ∈ affectedListeners before after) :
    ∃ listener, lastWith Listener.key (before.listeners ++ after.listeners) entry.key =
      some listener ∧ protocolOf listener.body = entry.protocol := by
  have change := mem_affectedListeners.mp affected
  rw [lastWith_append]
  unfold changeAt at change
  split at change
  · cases change
  · rename_i next absent found
    rw [found]
    exact ⟨next, rfl, congrArg AffectedListener.protocol (Option.some.inj change)⟩
  · rename_i prev found absent
    rw [found, absent]
    exact ⟨prev, rfl, congrArg AffectedListener.protocol (Option.some.inj change)⟩
  · rename_i prev next found foundNext
    split at change
    · cases change
    · rw [foundNext]
      exact ⟨next, rfl, congrArg AffectedListener.protocol (Option.some.inj change)⟩

/-- The listener has the same protocol in the newer model, or is not in it. -/
def KeepsProtocol (after : Model) (listener : Listener) : Prop :=
  ∀ next ∈ after.listeners, next.key = listener.key →
    protocolOf next.body = protocolOf listener.body

variable {listener : Listener}

theorem mem_openSockets {model : Model} (listed : listener ∈ model.listeners)
    (enabled : listener.enabled = true) : socketOf listener ∈ openSockets model :=
  List.mem_map.mpr ⟨listener, List.mem_filter.mpr ⟨List.mem_append_left _ listed, enabled⟩, rfl⟩

theorem mem_socketsRemoved {socket : String} :
    socket ∈ socketsRemoved before after ↔
      socket ∈ openSockets before ∧ socket ∉ openSockets after := by
  simp [socketsRemoved, mem_keySet]

theorem affected_of_closed (unique : (before.listeners.map Listener.key).Nodup)
    (listed : listener ∈ before.listeners) (enabled : listener.enabled = true)
    (keeps : KeepsProtocol after listener) (closed : socketOf listener ∉ openSockets after) :
    ∃ entry ∈ affectedListeners before after,
      entry.key = listener.key ∧ entry.protocol = protocolOf listener.body := by
  have prior := lastWith_of_unique unique listed
  cases found : lastWith Listener.key after.listeners listener.key with
  | none =>
      refine ⟨affectedBy .removed listener, mem_affectedListeners.mpr ?_, rfl, rfl⟩
      simp [changeAt, affectedBy, prior, found]
  | some next =>
      obtain ⟨nextListed, same⟩ := lastWith_some found
      have different : listenerClosure before listener ≠ listenerClosure after next := by
        intro equal
        have unchanged : listener = next := congrArg ListenerClosure.listener equal
        exact closed (unchanged ▸ mem_openSockets nextListed (unchanged ▸ enabled))
      refine ⟨affectedBy .changed next, mem_affectedListeners.mpr ?_, same,
        keeps next nextListed same⟩
      simp [changeAt, affectedBy, same, prior, found, different]

/-! ## What is reported -/

section

variable {affected : List AffectedListener} {removed : List String} {reload : Bool}

theorem impactOn_protocol (protocol : ListenerProtocol) :
    (impactOn before after affected removed reload protocol).protocol = protocol := by
  unfold impactOn
  split
  · rfl
  · split
    · rfl
    · split <;> rfl

variable {protocol : ListenerProtocol}

theorem effectOn_sessionImpactOf (used : protocol ∈ sessionProtocols before after) :
    effectOn (sessionImpactOf before after affected removed reload) protocol =
      some (impactOn before after affected removed reload protocol).effect := by
  have found : (sessionProtocols before after).find?
      (fun other => decide ((impactOn before after affected removed reload other).protocol =
        protocol)) = some protocol := by
    simp only [impactOn_protocol]
    cases first : (sessionProtocols before after).find? fun other => decide (other = protocol) with
    | none => simpa using List.find?_eq_none.mp first protocol used
    | some other => simpa using List.find?_some first
  rw [effectOn, sessionImpactOf, List.find?_map]
  simp only [Function.comp_def, found, Option.map_some]

theorem impactOn_dropped (dropped : droppedOf before after affected removed protocol ≠ []) :
    (impactOn before after affected removed reload protocol).effect = .mayReset := by
  have listed : affectedOf before after affected protocol ≠ [] := by
    intro none
    simp [droppedOf, none] at dropped
  unfold impactOn
  rw [if_neg listed, if_pos dropped]

theorem impactOn_cutoff {cutoff : Nat}
    (listed : affectedOf before after affected protocol ≠ []) (limited : cutoffOf after = some cutoff) :
    (impactOn before after affected removed true protocol).effect = .mayReset := by
  by_cases dropped : droppedOf before after affected removed protocol = []
  · simp only [impactOn, if_neg listed, dropped, ne_eq, not_true_eq_false, if_false, limited]
  · exact impactOn_dropped dropped

end

theorem mem_affectedOf {protocol : ListenerProtocol}
    (affected : entry ∈ affectedListeners before after) (same : entry.protocol = protocol) :
    entry ∈ affectedOf before after (affectedListeners before after) protocol := by
  obtain ⟨listener, newest, shown⟩ := newest_of_affected affected
  exact List.mem_filter.mpr ⟨affected, by simp [newest, shown, same]⟩

theorem mem_sessionProtocols (listed : listener ∈ before.listeners ++ after.listeners) :
    protocolOf listener.body ∈ sessionProtocols before after := by
  simp only [sessionProtocols, inKeyOrder, List.mem_insertionSort, List.mem_eraseDups]
  exact List.mem_map_of_mem listed

/-! ## Sessions that can be cut -/

section

variable (before : ImpactBefore) (after : ImpactAfter)

def CutBySocket (listener : Listener) : Prop :=
  listener.enabled = true ∧ socketOf listener ∈ socketsRemoved before.model after.model

def CutByReload (listener : Listener) : Prop :=
  listener.enabled = true ∧ requiresReload before after = true ∧
    (cutoffOf after.model).isSome = true

def Touched (protocol : ListenerProtocol) : Prop :=
  ∃ entry ∈ affectedListeners before.model after.model, entry.protocol = protocol

end

/-- No session that can be cut is reported as safe, as far as the change touches
its protocol. -/
theorem sessionImpact_sound {before : ImpactBefore} {after : ImpactAfter}
    (unique : (before.model.listeners.map Listener.key).Nodup) {listener : Listener}
    (listed : listener ∈ before.model.listeners)
    (cut : CutBySocket before after listener ∧ KeepsProtocol after.model listener ∨
      CutByReload before after listener ∧ Touched before after (protocolOf listener.body)) :
    effectOn (sessionImpact before after) (protocolOf listener.body) = some .mayReset := by
  have used : protocolOf listener.body ∈ sessionProtocols before.model after.model :=
    mem_sessionProtocols (List.mem_append_left _ listed)
  rw [sessionImpact, effectOn_sessionImpactOf used]
  rcases cut with ⟨⟨enabled, removed⟩, keeps⟩ | ⟨⟨-, reload, limited⟩, entry, affected, same⟩
  · obtain ⟨-, closed⟩ := mem_socketsRemoved.mp removed
    obtain ⟨entry, affected, key, same⟩ := affected_of_closed unique listed enabled keeps closed
    have dropped : entry ∈ droppedOf before.model after.model
        (affectedListeners before.model after.model)
        (socketsRemoved before.model after.model) (protocolOf listener.body) :=
      List.mem_filter.mpr ⟨mem_affectedOf affected same, by
        simp [key, lastWith_of_unique unique listed, removed]⟩
    rw [impactOn_dropped (List.ne_nil_of_mem dropped)]
  · obtain ⟨cutoff, limit⟩ := Option.isSome_iff_exists.mp limited
    rw [reload, impactOn_cutoff (List.ne_nil_of_mem (mem_affectedOf affected same)) limit]

/-! A listener `edge` is removed next to a listener `web` that stays, and old
workers have two seconds. -/

def web : Listener :=
  { key := "web", bind := "0.0.0.0", port := 80, enabled := true, body := .http {} }

def edge : Listener :=
  { key := "edge", bind := "0.0.0.0", port := 888, enabled := true,
    body := .tcp { defaultPool := "game" } }

def withEdge : ImpactBefore :=
  { model :=
      { engine := some { workerShutdownTimeoutS := some 2 }
        listeners := [web, edge]
        pools := [{ key := "game", protocolClass := .tcp, algorithm := .roundRobin }]
        backends := [⟨"game-1", "game", "10.0.0.1", 25565, 1, none, none⟩] }
    conf := "http and stream"
    servedDigest := some "d1" }

def withoutEdge : ImpactAfter :=
  { model := { withEdge.model with listeners := [web] }
    rendered := { conf := "http", digest := "d2", planes := [.http] } }

theorem sessionImpact_sound_edge :
    effectOn (sessionImpact withEdge withoutEdge) .tcp = some .mayReset := by
  have listed : edge ∈ withEdge.model.listeners := by decide
  have keeps : KeepsProtocol withoutEdge.model edge := by
    simp [KeepsProtocol, withoutEdge, web, edge]
  exact sessionImpact_sound (by decide) listed (.inl ⟨⟨rfl, by decide +kernel⟩, keeps⟩)

/-- The session of a listener that the change leaves alone is cut by the reload. -/
theorem untouched_protocol_cut :
    web ∈ withEdge.model.listeners ∧ CutByReload withEdge withoutEdge web ∧
      effectOn (sessionImpact withEdge withoutEdge) (protocolOf web.body) = some .none :=
  ⟨by decide, ⟨rfl, by decide +kernel, rfl⟩, by decide +kernel⟩

end Store

end Barycenter
