import Barycenter.Store.Patch
import Barycenter.Model.Decode

/-!
# The resources that are connected

The page of a resource lists what it uses and what uses it.  The view reads the
references of every kind of resource on its own; the validator reports the same
references when they lead nowhere, under the key of the resource that has them or,
for a route of a missing listener, under its inputs.
-/

namespace Barycenter

namespace Web

open Config
open Store (ResourceKind)
open Validate

/-! ## The view -/

structure Ref where
  kind : ResourceKind
  key : String
  deriving DecidableEq

structure Edge where
  source : Ref
  target : Ref
  via : String

/-- The keys of `itemsOf`. -/
def keysOf (model : Model) : ResourceKind → List String
  | .engine => []
  | .pool => model.pools.map Pool.key
  | .backend => model.backends.map Backend.key
  | .certificate => model.certificates.map Certificate.key
  | .tlsPolicy => model.tlsPolicies.map TlsPolicy.key
  | .addressSet => (model.addressSets.getD []).map AddressSet.key
  | .listener => model.listeners.map Listener.key
  | .httpRoute => model.httpRoutes.map HttpRoute.key
  | .passthroughRoute => model.passthroughRoutes.map PassthroughRoute.key
  | .sniBinding => model.sniBindings.map SniCertificateBinding.key

def add (source : Ref) (kind : ResourceKind) (key : Option String) (via : String) : List Edge :=
  (key.filter (· ≠ "")).toList.map fun key => ⟨source, ⟨kind, key⟩, via⟩

def sets (source : Ref) (texts : List String) (via : String) : List Edge :=
  texts.flatMap fun text =>
    match text.toList with
    -- an empty key is added here
    | '@' :: key => [⟨source, ⟨.addressSet, String.ofList key⟩, via⟩]
    | _ => []

def outcomePool : Option SniOutcome → Option String
  | some (.pool key) => some key
  | _ => none

def actionPool : HttpAction → Option String
  | .proxy pool _ _ _ => some pool
  | _ => none

def defaultPool : ListenerBody → Option String
  | .tcp body => some body.defaultPool
  | .udp body => some body.defaultPool
  | _ => none

def onUnmatchedSni : ListenerBody → Option SniOutcome
  | .tlsPassthrough body => body.onUnmatchedSni
  | _ => none

def onNoSni : ListenerBody → Option SniOutcome
  | .tlsPassthrough body => body.onNoSni
  | _ => none

def listenerEdges (l : Listener) : List Edge :=
  let source : Ref := ⟨.listener, l.key⟩
  add source .pool (outcomePool (l.http.bind HttpProfile.defaultAction)) "기본 동작" ++
    add source .pool (defaultPool l.body) "기본 풀" ++
    add source .pool (outcomePool (onUnmatchedSni l.body)) "SNI 매칭 없음" ++
    add source .pool (outcomePool (onNoSni l.body)) "SNI 없음" ++
    add source .tlsPolicy (l.tls.map RawTlsBinding.policy) "TLS 정책" ++
    add source .certificate (l.tls.map RawTlsBinding.defaultCertificate) "기본 인증서" ++
    sets source (l.sourceAllow.getD []) "출발지 제한" ++
    sets source ((l.acceptProxyProtocol.map InboundProxyProtocol.trustedCidrs).getD [])
      "PROXY 수신" ++
    sets source ((l.realIpFromHeader.map InboundRealIpHeader.trustedCidrs).getD []) "원본 IP 헤더"

def httpRouteEdges (r : HttpRoute) : List Edge :=
  let source : Ref := ⟨.httpRoute, r.key⟩
  add source .listener (some r.listener) "리스너" ++
    add source .pool (actionPool r.action) "프록시" ++
    (r.sourceRules.getD []).flatMap fun rule =>
      add source .pool (actionPool rule.action) "출발지 규칙" ++
        sets source rule.sources "출발지 규칙"

def passthroughRouteEdges (r : PassthroughRoute) : List Edge :=
  let source : Ref := ⟨.passthroughRoute, r.key⟩
  add source .listener (some r.listener) "리스너" ++
    match r.action with
    | .proxy pool => add source .pool (some pool) "프록시"
    | .reject => []

def edgesOf (model : Model) : List Edge :=
  model.listeners.flatMap listenerEdges ++
    model.httpRoutes.flatMap httpRouteEdges ++
    model.passthroughRoutes.flatMap passthroughRouteEdges ++
    (model.backends.flatMap fun b => add ⟨.backend, b.key⟩ .pool (some b.pool) "풀") ++
    (model.pools.flatMap fun p =>
      add ⟨.pool, p.key⟩ .certificate (p.upstreamTls.bind UpstreamTls.caBundle) "업스트림 CA") ++
    model.sniBindings.flatMap fun s =>
      add ⟨.sniBinding, s.key⟩ .listener (some s.listener) "리스너" ++
        add ⟨.sniBinding, s.key⟩ .certificate (some s.certificate) "인증서"

structure Relations where
  /-- With whether the target is missing. -/
  uses : List (Edge × Bool)
  usedBy : List Edge

def relationsOf (model : Model) (ref : Ref) : Relations where
  uses := ((edgesOf model).filter fun edge => edge.source = ref).map fun edge =>
    (edge, edge.target.key ∉ keysOf model edge.target.kind)
  usedBy := (edgesOf model).filter fun edge => edge.target = ref

/-! ## What resources refer to -/

def listenerPools : ListenerBody → List String
  | .http body => (outcomePool (body.http.bind HttpProfile.defaultAction)).toList
  | .https body => (outcomePool (body.http.bind HttpProfile.defaultAction)).toList
  | .tlsPassthrough body =>
      (outcomePool body.onUnmatchedSni).toList ++ (outcomePool body.onNoSni).toList
  | .tcp body => [body.defaultPool]
  | .udp body => [body.defaultPool]

theorem mem_listenerPools {l : Listener} {key : String} : key ∈ listenerPools l.body ↔
    outcomePool (l.http.bind HttpProfile.defaultAction) = some key ∨
      defaultPool l.body = some key ∨ outcomePool (onUnmatchedSni l.body) = some key ∨
      outcomePool (onNoSni l.body) = some key := by
  unfold Listener.http
  cases l.body <;>
    simp [listenerPools, defaultPool, onUnmatchedSni, onNoSni, outcomePool, eq_comm]

def listenerRefs (l : Listener) : List Ref :=
  (listenerPools l.body).map (Ref.mk .pool) ++
    (l.tls.toList.map fun tls => ⟨.tlsPolicy, tls.policy⟩) ++
    (l.tls.toList.map fun tls => ⟨.certificate, tls.defaultCertificate⟩) ++
    (referencedSets l).map (Ref.mk .addressSet)

/-- The validator does not look at the listener of a route without hosts. -/
def listenerRef (looked : Bool) (hosts : List String) (listener : String) : List Ref :=
  if looked && hosts.isEmpty then [] else [⟨.listener, listener⟩]

def httpRouteRefs (looked : Bool) (r : HttpRoute) : List Ref :=
  listenerRef looked r.hosts r.listener ++
    ((routeActions r).filterMap actionPool).map (Ref.mk .pool) ++
    (referencedSetsOfRoute r).map (Ref.mk .addressSet)

def passthroughRouteRefs (looked : Bool) (r : PassthroughRoute) : List Ref :=
  listenerRef looked r.snis r.listener ++
    match r.action with
    | .proxy pool => [⟨.pool, pool⟩]
    | .reject => []

def poolRefs (p : Pool) : List Ref :=
  (p.upstreamTls.bind UpstreamTls.caBundle).toList.map (Ref.mk .certificate)

def bindingRefs (s : SniCertificateBinding) : List Ref :=
  [⟨.listener, s.listener⟩, ⟨.certificate, s.certificate⟩]

/-- Of all references, or of those that the validator looks at. -/
def Refers (looked : Bool) (model : Model) (source target : Ref) : Prop :=
  (∃ l ∈ model.listeners, source = ⟨.listener, l.key⟩ ∧ target ∈ listenerRefs l) ∨
    (∃ r ∈ model.httpRoutes, source = ⟨.httpRoute, r.key⟩ ∧ target ∈ httpRouteRefs looked r) ∨
    (∃ r ∈ model.passthroughRoutes,
      source = ⟨.passthroughRoute, r.key⟩ ∧ target ∈ passthroughRouteRefs looked r) ∨
    (∃ b ∈ model.backends, source = ⟨.backend, b.key⟩ ∧ target = ⟨.pool, b.pool⟩) ∨
    (∃ p ∈ model.pools, source = ⟨.pool, p.key⟩ ∧ target ∈ poolRefs p) ∨
    ∃ s ∈ model.sniBindings, source = ⟨.sniBinding, s.key⟩ ∧ target ∈ bindingRefs s

/-- A text of these ranges that begins with an at sign is a reference. -/
def Shaped (texts : List String) : Prop :=
  ∀ text ∈ texts, text.toList.head? = some '@' → addressSetRef text ≠ none

def rangeTexts (l : Listener) : List String :=
  l.sourceAllow.getD [] ++ (l.realIpFromHeader.map InboundRealIpHeader.trustedCidrs).getD [] ++
    (l.acceptProxyProtocol.map InboundProxyProtocol.trustedCidrs).getD []

structure ShapedModel (model : Model) : Prop where
  listeners : ∀ l ∈ model.listeners, Shaped (rangeTexts l)
  routes : ∀ r ∈ model.httpRoutes, Shaped ((r.sourceRules.getD []).flatMap HttpSourceRule.sources)

theorem mem_setRefs {texts : List String} {key : String} :
    key ∈ setRefs texts ↔ ∃ text ∈ texts, addressSetRef text = some key := by
  simp [setRefs]

/-! ## The view lists the references -/

/-- Some edge of the list goes from the one to the other. -/
def Joins (edges : List Edge) (source target : Ref) : Prop :=
  ∃ edge ∈ edges, edge.source = source ∧ edge.target = target

section

variable {source target : Ref} {kind : ResourceKind} {via : String}

@[simp]
theorem joins_append {first second : List Edge} : Joins (first ++ second) source target ↔
    Joins first source target ∨ Joins second source target := by
  simp only [Joins, List.mem_append, or_and_right, exists_or]

@[simp]
theorem joins_flatMap {α : Type} {items : List α} {edges : α → List Edge} :
    Joins (items.flatMap edges) source target ↔ ∃ item ∈ items, Joins (edges item) source target := by
  simp only [Joins, List.mem_flatMap]
  grind

@[simp]
theorem joins_add {origin : Ref} {key : Option String} :
    Joins (add origin kind key via) source target ↔
      source = origin ∧ target.key ≠ "" ∧ target.kind = kind ∧ key = some target.key := by
  cases key with
  | none => simp [Joins, add]
  | some key =>
      obtain ⟨_, name⟩ := target
      by_cases empty : key = "" <;> simp [Joins, add, Option.filter, empty] <;> grind

theorem joins_sets {origin : Ref} {texts : List String} (shaped : Shaped texts) :
    Joins (sets origin texts via) source target ↔
      source = origin ∧ target.key ≠ "" ∧ target.kind = .addressSet ∧ target.key ∈ setRefs texts := by
  have filled : ∀ {chars : List Char}, Store.keySyntax (String.ofList chars) = true →
      String.ofList chars ≠ "" := by
    intro chars valid empty
    simp [empty, Store.keySyntax] at valid
  simp only [Joins, sets, List.mem_flatMap, mem_setRefs]
  constructor
  · rintro ⟨edge, ⟨text, listed, member⟩, rfl, rfl⟩
    split at member
    · rename_i key spelled
      obtain rfl := List.mem_singleton.mp member
      have reference := shaped text listed (by simp [spelled])
      simp only [addressSetRef, spelled, ne_eq, ite_eq_right_iff, reduceCtorEq, imp_false,
        not_not] at reference
      exact ⟨rfl, filled reference, rfl, text, listed, by simp [addressSetRef, spelled, reference]⟩
    · cases member
  · rintro ⟨rfl, -, same, text, listed, named⟩
    unfold addressSetRef at named
    split at named
    · rename_i key spelled
      simp only [Option.ite_none_right_eq_some, Option.some.injEq] at named
      exact ⟨⟨source, ⟨.addressSet, String.ofList key⟩, via⟩, ⟨text, listed, by simp [spelled]⟩, rfl,
        by rw [named.2, ← same]⟩
    · cases named

theorem joins_listener {l : Listener} (shaped : Shaped (rangeTexts l)) :
    Joins (listenerEdges l) source target ↔
      source = ⟨.listener, l.key⟩ ∧ target.key ≠ "" ∧ target ∈ listenerRefs l := by
  obtain ⟨kind, key⟩ := target
  have part : ∀ {texts : List String}, (∀ text ∈ texts, text ∈ rangeTexts l) → Shaped texts :=
    fun within text listed => shaped text (within text listed)
  simp only [listenerEdges, joins_append, joins_add, listenerRefs, referencedSets]
  rw [joins_sets (part (by simp_all [rangeTexts])), joins_sets (part (by simp_all [rangeTexts])),
    joins_sets (part (by simp_all [rangeTexts]))]
  cases kind <;> simp [mem_setRefs, mem_listenerPools] <;> grind

theorem joins_httpRoute {r : HttpRoute}
    (shaped : Shaped ((r.sourceRules.getD []).flatMap HttpSourceRule.sources)) :
    Joins (httpRouteEdges r) source target ↔
      source = ⟨.httpRoute, r.key⟩ ∧ target.key ≠ "" ∧ target ∈ httpRouteRefs false r := by
  obtain ⟨kind, key⟩ := target
  have part : ∀ rule ∈ r.sourceRules.getD [], Shaped rule.sources := fun rule ruled text listed =>
    shaped text (List.mem_flatMap.mpr ⟨rule, ruled, listed⟩)
  have rules : Joins ((r.sourceRules.getD []).flatMap fun rule =>
      add ⟨.httpRoute, r.key⟩ .pool (actionPool rule.action) "출발지 규칙" ++
        sets ⟨.httpRoute, r.key⟩ rule.sources "출발지 규칙") source ⟨kind, key⟩ ↔
      ∃ rule ∈ r.sourceRules.getD [], source = ⟨.httpRoute, r.key⟩ ∧ key ≠ "" ∧
        (kind = .pool ∧ actionPool rule.action = some key ∨
          kind = .addressSet ∧ key ∈ setRefs rule.sources) := by
    rw [joins_flatMap]
    refine exists_congr fun rule => and_congr_right fun ruled => ?_
    rw [joins_append, joins_add, joins_sets (part rule ruled)]
    grind
  simp only [httpRouteEdges, joins_append, joins_add, rules, httpRouteRefs, listenerRef,
    routeActions, referencedSetsOfRoute]
  cases kind <;> simp [mem_setRefs] <;> grind

/-- The view has no edge to an empty key. -/
theorem joins_edgesOf {model : Model} (shaped : ShapedModel model) :
    Joins (edgesOf model) source target ↔ target.key ≠ "" ∧ Refers false model source target := by
  have listeners : (∃ l ∈ model.listeners, Joins (listenerEdges l) source target) ↔
      ∃ l ∈ model.listeners, source = ⟨.listener, l.key⟩ ∧ target.key ≠ "" ∧
        target ∈ listenerRefs l :=
    exists_congr fun l => and_congr_right fun listed => joins_listener (shaped.listeners l listed)
  have routes : (∃ r ∈ model.httpRoutes, Joins (httpRouteEdges r) source target) ↔
      ∃ r ∈ model.httpRoutes, source = ⟨.httpRoute, r.key⟩ ∧ target.key ≠ "" ∧
        target ∈ httpRouteRefs false r :=
    exists_congr fun r => and_congr_right fun listed => joins_httpRoute (shaped.routes r listed)
  have passthroughs : ∀ r : PassthroughRoute, Joins (passthroughRouteEdges r) source target ↔
      source = ⟨.passthroughRoute, r.key⟩ ∧ target.key ≠ "" ∧
        target ∈ passthroughRouteRefs false r := by
    intro r
    obtain ⟨kind, key⟩ := target
    rw [passthroughRouteEdges, joins_append, passthroughRouteRefs, listenerRef]
    cases r.action <;> cases kind <;> simp [Joins, add, Option.filter] <;> grind
  obtain ⟨kind, key⟩ := target
  simp only [edgesOf, joins_append, joins_flatMap, listeners, routes, passthroughs, joins_add, Refers,
    poolRefs, bindingRefs]
  cases kind <;> simp <;> grind

end

/-! ## What the validator reports -/

def dangling : ModelIssueCode → Bool
  | .unknownPool | .orphanBackend | .unknownListener | .unknownAddressSet
  | .unknownTlsReference => true
  | _ => false

def Quiet (issues : List ModelIssue) : Prop := ∀ issue ∈ issues, dangling issue.code = false

section

variable {first second : List ModelIssue} {condition : Prop} [Decidable condition]

@[simp]
theorem quiet_nil : Quiet [] := by simp [Quiet]

@[simp]
theorem quiet_cons {issue : ModelIssue} :
    Quiet (issue :: second) ↔ dangling issue.code = false ∧ Quiet second := by
  simp [Quiet]

@[simp]
theorem quiet_append : Quiet (first ++ second) ↔ Quiet first ∧ Quiet second := by
  simp only [Quiet, List.forall_mem_append]

@[simp]
theorem quiet_flatMap {α : Type} {items : List α} {issues : α → List ModelIssue} :
    Quiet (items.flatMap issues) ↔ ∀ item ∈ items, Quiet (issues item) := by
  simp only [Quiet, List.mem_flatMap]
  grind

@[simp]
theorem quiet_map {α : Type} {items : List α} {issue : α → ModelIssue} :
    Quiet (items.map issue) ↔ ∀ item ∈ items, dangling (issue item).code = false := by
  simp [Quiet]

@[simp]
theorem quiet_ite : Quiet (if condition then first else second) ↔
    (condition → Quiet first) ∧ (¬condition → Quiet second) := by
  split <;> simp_all

end

section

variable (runtime : Runtime) (caps : ValidationCapabilities) (model : Model)

theorem quiet_poolIssues (pool : Pool) : Quiet (poolIssues model pool) := by
  unfold poolIssues
  simp [dangling]
  constructor
  · split
    · simp
    · split <;> simp [dangling]
  · split <;> simp [dangling]

theorem quiet_conflictIssues : Quiet (conflictIssues runtime model) := by
  simp only [Quiet, conflictIssues, List.mem_filterMap]
  rintro issue ⟨conflict, -, reported⟩
  split at reported
  · split at reported <;> cases reported <;> rfl
  · cases reported
    rfl

theorem quiet_hostShapeIssues (listener : Listener) (seen hosts : List String) :
    Quiet (hostShapeIssues runtime listener seen hosts) := by
  induction hosts generalizing seen with
  | nil => simp [hostShapeIssues]
  | cons host rest induction =>
      simp only [hostShapeIssues]
      split <;> simp [induction, dangling]

theorem quiet_claimIssues (place : String) (owner claims : List (String × String)) :
    Quiet (claimIssues runtime place owner claims) := by
  induction claims generalizing owner with
  | nil => simp [claimIssues]
  | cons claim rest induction =>
      simp only [claimIssues]
      split <;> simp [induction, dangling]

theorem quiet_vhostIssues : Quiet (vhostIssues runtime caps model) := by
  simp only [vhostIssues, quiet_append, quiet_flatMap]
  refine ⟨⟨fun listener _ => ?_, fun route _ => ?_⟩, fun group _ => ?_⟩
  · exact quiet_hostShapeIssues runtime listener [] _
  · unfold routeHostIssues
    split
    · simp
    · split <;> simp [dangling]
  · unfold socketIssues
    split
    · simp
    · simp [quiet_claimIssues, dangling]

theorem quiet_shadowIssues (key : String) (index : Nat) (seen : List SeenRange)
    (rules : List HttpSourceRule) : Quiet (shadowIssues model key index seen rules) := by
  induction rules generalizing index seen with
  | nil => simp [shadowIssues]
  | cons rule rest induction =>
      simp only [shadowIssues, quiet_append]
      refine ⟨?_, induction _ _⟩
      simp only [Quiet, List.mem_filterMap, Option.map_eq_some_iff]
      rintro issue ⟨_, -, _, -, rfl⟩
      rfl

theorem quiet_bindingConflicts (listener : String) (seen hosts : List (String × String)) :
    Quiet (bindingConflicts listener seen hosts) := by
  induction hosts generalizing seen with
  | nil => simp [bindingConflicts]
  | cons host rest induction =>
      simp only [bindingConflicts]
      split <;> simp [induction, dangling]

theorem quiet_usedBy (certificate subject : String) : Quiet (usedBy model certificate subject) := by
  simp [usedBy, dangling]

theorem quiet_acmeIntentIssues (certificate : Certificate) :
    Quiet (acmeIntentIssues runtime certificate) := by
  unfold acmeIntentIssues
  split
  · simp
  · simp only [quiet_append, quiet_flatMap]
    refine ⟨by simp [dangling], fun domain _ => ?_⟩
    split <;> simp [dangling]

theorem quiet_hstsIssues (policy : TlsPolicy) : Quiet (hstsIssues policy) := by
  unfold hstsIssues
  split <;> simp [dangling]

theorem quiet_missingBindingIssues (route : HttpRoute) :
    Quiet (missingBindingIssues model route) := by
  unfold missingBindingIssues
  split <;> simp [dangling]

end

/-- The issue is about the resource: its key comes first, or, for a route without its
listener, the key of an input. -/
def Names (issue : ModelIssue) (user : Ref) : Prop :=
  issue.subjects.head? = some user.key ∨
    issue.code = .unknownListener ∧ (user.kind = .httpRoute ∨ user.kind = .passthroughRoute) ∧
      ∃ position, issue.subjects = [user.key ++ "#" ++ position]

/-- The dangling issues are about the resource, and there are some when something is
missing. -/
structure Tells (user : Ref) (issues : List ModelIssue) (missing : Prop) : Prop where
  only : ∀ issue ∈ issues, dangling issue.code = true → Names issue user ∧ missing
  some : missing → ∃ issue ∈ issues, dangling issue.code = true

section

variable {user : Ref} {first second : List ModelIssue} {missing gone : Prop}

theorem Quiet.tells (quiet : Quiet first) : Tells user first False where
  only := fun issue member dangles => by simp [quiet issue member] at dangles
  some := False.elim

theorem Tells.append (left : Tells user first missing) (right : Tells user second gone) :
    Tells user (first ++ second) (missing ∨ gone) where
  only := by
    intro issue member dangles
    rcases List.mem_append.mp member with member | member
    · exact (left.only issue member dangles).imp_right .inl
    · exact (right.only issue member dangles).imp_right .inr
  some := by
    rintro (nothing | nothing)
    · obtain ⟨issue, member, dangles⟩ := left.some nothing
      exact ⟨issue, List.mem_append_left _ member, dangles⟩
    · obtain ⟨issue, member, dangles⟩ := right.some nothing
      exact ⟨issue, List.mem_append_right _ member, dangles⟩

theorem Tells.congr (tells : Tells user first missing) (same : missing ↔ gone) :
    Tells user first gone := by
  rwa [← propext same]

theorem Quiet.before (quiet : Quiet first) (tells : Tells user second gone) :
    Tells user (first ++ second) gone :=
  (quiet.tells.append tells).congr (false_or _).to_iff

theorem Tells.flatMap {α : Type} {items : List α} {issues : α → List ModelIssue}
    {missing : α → Prop} (each : ∀ item ∈ items, Tells user (issues item) (missing item)) :
    Tells user (items.flatMap issues) (∃ item ∈ items, missing item) where
  only := by
    intro issue member dangles
    obtain ⟨item, listed, member⟩ := List.mem_flatMap.mp member
    obtain ⟨names, nothing⟩ := (each item listed).only issue member dangles
    exact ⟨names, item, listed, nothing⟩
  some := by
    rintro ⟨item, listed, nothing⟩
    obtain ⟨issue, member, dangles⟩ := (each item listed).some nothing
    exact ⟨issue, List.mem_flatMap.mpr ⟨item, listed, member⟩, dangles⟩

end

theorem tells_unless {user : Ref} {present : Prop} [Decidable present] {issue : ModelIssue}
    (dangles : dangling issue.code = true) (named : issue.subjects.head? = some user.key) :
    Tells user (if present then [] else [issue]) ¬present := by
  split
  · exact (Quiet.tells quiet_nil).congr (by simp_all)
  · refine ⟨fun other member _ => ?_, fun _ => ⟨issue, List.mem_cons_self, dangles⟩⟩
    rw [List.mem_singleton.mp member]
    exact ⟨.inl named, by assumption⟩

/-! ## Removing a resource -/

def without (ref : Ref) (model : Model) : Model :=
  match ref.kind with
  | .engine => model
  | .pool => { model with pools := model.pools.filter (·.key ≠ ref.key) }
  | .backend => { model with backends := model.backends.filter (·.key ≠ ref.key) }
  | .certificate => { model with certificates := model.certificates.filter (·.key ≠ ref.key) }
  | .tlsPolicy => { model with tlsPolicies := model.tlsPolicies.filter (·.key ≠ ref.key) }
  | .addressSet =>
      { model with addressSets := model.addressSets.map fun sets => sets.filter (·.key ≠ ref.key) }
  | .listener => { model with listeners := model.listeners.filter (·.key ≠ ref.key) }
  | .httpRoute => { model with httpRoutes := model.httpRoutes.filter (·.key ≠ ref.key) }
  | .passthroughRoute =>
      { model with passthroughRoutes := model.passthroughRoutes.filter (·.key ≠ ref.key) }
  | .sniBinding => { model with sniBindings := model.sniBindings.filter (·.key ≠ ref.key) }

section

variable {model : Model} {ref : Ref} {key : String}

theorem mem_keysOf_without {kind : ResourceKind} :
    key ∈ keysOf (without ref model) kind ↔ key ∈ keysOf model kind ∧ ref ≠ ⟨kind, key⟩ := by
  obtain ⟨removed, name⟩ := ref
  have sets : ((model.addressSets.map fun sets => sets.filter (·.key ≠ name)).getD []) =
      (model.addressSets.getD []).filter (·.key ≠ name) := by
    cases model.addressSets <;> rfl
  cases removed <;> cases kind <;> simp [without, keysOf] <;> grind

theorem poolOf_isSome : (poolOf model key).isSome ↔ key ∈ keysOf model .pool := by
  simp [poolOf, lastWith, keysOf]

theorem listenerOf_isSome : (listenerOf model key).isSome ↔ key ∈ keysOf model .listener := by
  simp [listenerOf, lastWith, keysOf]

theorem hasCertificate_iff : hasCertificate model key ↔ key ∈ keysOf model .certificate := by
  simp [hasCertificate, keysOf]

theorem hasAddressSet_iff : hasAddressSet model key ↔ key ∈ keysOf model .addressSet := by
  simp [hasAddressSet, keysOf]

theorem needPool_tells (user : Ref) (expect : ProtocolClass) :
    Tells user (needPool model user.key key expect) (key ∉ keysOf model .pool) := by
  rw [← poolOf_isSome]
  unfold needPool
  cases found : poolOf model key with
  | none =>
      refine ⟨?_, fun _ => ⟨_, List.mem_cons_self, rfl⟩⟩
      intro issue member _
      rw [List.mem_singleton.mp member]
      exact ⟨.inl rfl, by simp⟩
  | some pool =>
      refine (Quiet.tells ?_).congr (by simp)
      simp [dangling]

theorem needOutcome_tells (user : Ref) (outcome : Option SniOutcome) (expect : ProtocolClass) :
    Tells user (needOutcome model user.key outcome expect)
      (∃ key ∈ outcomePool outcome, key ∉ keysOf model .pool) := by
  unfold needOutcome
  split
  · exact (needPool_tells user expect).congr (by simp [outcomePool])
  · exact (Quiet.tells (by simp)).congr (by simp [outcomePool])
  · exact (Quiet.tells (by simp)).congr (by simp [outcomePool])

variable (runtime : Runtime) (caps : ValidationCapabilities)

theorem listenerIssues_tells (l : Listener) :
    Tells ⟨.listener, l.key⟩ (listenerIssues runtime caps model l)
      (∃ key ∈ listenerPools l.body, key ∉ keysOf model .pool) := by
  unfold listenerIssues
  refine Quiet.before (by simp [dangling]) ?_
  cases l.body with
  | http body => exact (needOutcome_tells ⟨.listener, l.key⟩ _ _).congr (by simp [listenerPools])
  | https body =>
      exact Quiet.before (by simp [dangling])
        ((needOutcome_tells ⟨.listener, l.key⟩ _ _).congr (by simp [listenerPools]))
  | tlsPassthrough body =>
      exact ((needOutcome_tells ⟨.listener, l.key⟩ _ _).append
        (needOutcome_tells ⟨.listener, l.key⟩ _ _)).congr (by simp [listenerPools]; grind)
  | tcp body => exact (needPool_tells ⟨.listener, l.key⟩ _).congr (by simp [listenerPools])
  | udp body => exact (needPool_tells ⟨.listener, l.key⟩ _).congr (by simp [listenerPools])

theorem addRouteIssues_tells (user : Ref) (route : user.kind = .httpRoute ∨ user.kind = .passthroughRoute)
    (listener : String) (inputs : List Route.RouteInput)
    (positions : ∀ input ∈ inputs, ∃ position, input.key = user.key ++ "#" ++ position) :
    Tells user (addRouteIssues model listener inputs)
      (listener ∉ keysOf model .listener ∧ inputs ≠ []) := by
  rw [← listenerOf_isSome]
  unfold addRouteIssues
  split
  · exact (Quiet.tells (by simp)).congr (by simp_all)
  · rename_i absent
    refine ⟨?_, ?_⟩
    · simp only [List.mem_map]
      rintro issue ⟨input, listed, rfl⟩ _
      obtain ⟨position, same⟩ := positions input listed
      exact ⟨.inr ⟨rfl, route, position, by rw [same]⟩, absent, List.ne_nil_of_mem listed⟩
    · rintro ⟨-, some⟩
      obtain ⟨input, listed⟩ := List.exists_mem_of_ne_nil inputs some
      exact ⟨_, List.mem_map.mpr ⟨input, listed, rfl⟩, rfl⟩

theorem setIssues_tells {user : Ref} {refs : List String} {issue : String → ModelIssue}
    (about : ∀ key, (issue key).code = .unknownAddressSet ∧
      (issue key).subjects.head? = some user.key) :
    Tells user ((refs.filter fun key => !hasAddressSet model key).map issue)
      (∃ key ∈ refs, key ∉ keysOf model .addressSet) where
  only := by
    simp only [List.mem_map, List.mem_filter, Bool.not_eq_true', ← Bool.not_eq_true,
      hasAddressSet_iff]
    rintro _ ⟨key, ⟨listed, absent⟩, rfl⟩ _
    exact ⟨.inl (about key).2, key, listed, absent⟩
  some := by
    rintro ⟨key, listed, absent⟩
    rw [← hasAddressSet_iff, Bool.not_eq_true] at absent
    exact ⟨issue key, List.mem_map.mpr ⟨key, List.mem_filter.mpr ⟨listed, by simp [absent]⟩, rfl⟩,
      by simp [(about key).1, dangling]⟩

theorem httpRouteIssues_tells {r : HttpRoute}
    (fits : protocolMismatch model r.listener httpProtocols = none) :
    Tells ⟨.httpRoute, r.key⟩ (httpRouteIssues model r)
      ((∃ key ∈ (routeActions r).filterMap actionPool, key ∉ keysOf model .pool) ∨
        r.listener ∉ keysOf model .listener ∧ r.hosts ≠ []) := by
  have pools : Tells ⟨.httpRoute, r.key⟩ ((routeActions r).flatMap (needActionPool model r.key))
      (∃ action ∈ routeActions r, ∃ key ∈ actionPool action, key ∉ keysOf model .pool) := by
    refine .flatMap fun action _ => ?_
    cases action with
    | proxy pool => exact (needPool_tells ⟨.httpRoute, r.key⟩ _).congr (by simp [actionPool])
    | _ => exact (Quiet.tells (by simp [needActionPool])).congr (by simp [actionPool])
  have filled : httpInputs r = [] ↔ r.hosts = [] := by
    have paths : routePaths r ≠ [] := by
      unfold routePaths
      split <;> simp
    cases hosts : r.hosts <;> simp [httpInputs, hosts, List.zipIdx_cons, paths]
  unfold httpRouteIssues
  simp only [wantProtocol, fits, List.append_nil, Option.isSome_none, Bool.false_eq_true, if_false]
  refine (pools.append (addRouteIssues_tells _ (.inl rfl) r.listener _ ?_)).congr ?_
  · intro input listed
    simp only [httpInputs, List.mem_flatMap, List.mem_map] at listed
    obtain ⟨⟨host, at_⟩, -, ⟨path, place⟩, -, rfl⟩ := listed
    simp only
    split
    · exact ⟨toString at_ ++ "." ++ toString place, by simp [String.append_assoc]⟩
    · exact ⟨_, rfl⟩
  · simp [filled]
    grind

theorem passthroughRouteIssues_tells {r : PassthroughRoute}
    (fits : protocolMismatch model r.listener [.tlsPassthrough] = none) :
    Tells ⟨.passthroughRoute, r.key⟩ (passthroughRouteIssues model r)
      ((∃ key, r.action = .proxy key ∧ key ∉ keysOf model .pool) ∨
        r.listener ∉ keysOf model .listener ∧ r.snis ≠ []) := by
  unfold passthroughRouteIssues
  simp only [wantProtocol, fits, List.append_nil, Option.isSome_none, Bool.false_eq_true, if_false]
  refine (Tells.append ?_ ((addRouteIssues_tells _ (.inr rfl) r.listener _ ?_).congr ?_))
  · cases r.action with
    | proxy pool => exact (needPool_tells ⟨.passthroughRoute, r.key⟩ _).congr (by simp)
    | reject => exact (Quiet.tells (by simp)).congr (by simp)
  · intro input listed
    simp only [passthroughInputs, List.mem_map] at listed
    obtain ⟨⟨sni, place⟩, -, rfl⟩ := listed
    exact ⟨_, rfl⟩
  · simp [passthroughInputs]

theorem backendIssues_tells (b : Backend) :
    Tells ⟨.backend, b.key⟩ (backendIssues model b) (b.pool ∉ keysOf model .pool) :=
  (tells_unless rfl rfl).congr (not_congr poolOf_isSome)

theorem upstreamTlsIssues_tells {p : Pool}
    (material : ∀ key ∈ p.upstreamTls.bind UpstreamTls.caBundle, ∀ certificate,
      model.certificates.find? (·.key = key) = some certificate → certificate.materialRef ≠ none) :
    Tells ⟨.pool, p.key⟩ (upstreamTlsIssues model p)
      (∃ key ∈ p.upstreamTls.bind UpstreamTls.caBundle, key ∉ keysOf model .certificate) := by
  unfold upstreamTlsIssues
  cases given : p.upstreamTls with
  | none => exact (Quiet.tells (by simp)).congr (by simp)
  | some tls =>
      refine Quiet.before (by simp [dangling]) ?_
      cases bundle : tls.caBundle with
      | none => exact (Quiet.tells (by simp)).congr (by simp [bundle])
      | some key =>
          refine ((tells_unless rfl rfl).append (Quiet.tells ?_)).congr
            (by simp [bundle, hasCertificate_iff])
          split
          · simp
          · rename_i certificate found
            have present := material key (by simp [given, bundle]) certificate (by simpa using found)
            simp [present]

theorem tlsReferenceIssues_tells (l : Listener) :
    Tells ⟨.listener, l.key⟩ (tlsReferenceIssues model l)
      (∃ tls ∈ l.tls, tls.policy ∉ keysOf model .tlsPolicy ∨
        tls.defaultCertificate ∉ keysOf model .certificate) := by
  unfold tlsReferenceIssues
  cases l.tls with
  | none => exact (Quiet.tells (by simp)).congr (by simp)
  | some tls =>
      exact ((tells_unless rfl rfl).append (tells_unless rfl rfl)).congr
        (by simp [keysOf, hasCertificate])

theorem bindingIssues_tells {s : SniCertificateBinding}
    (https : ∀ l, listenerOf model s.listener = some l → l.isHttps = true) :
    Tells ⟨.sniBinding, s.key⟩ (bindingIssues runtime model s)
      (s.listener ∉ keysOf model .listener ∨ s.certificate ∉ keysOf model .certificate) := by
  rw [← listenerOf_isSome]
  unfold bindingIssues
  cases found : listenerOf model s.listener with
  | none =>
      refine ⟨fun issue member _ => ?_, fun _ => ⟨_, List.mem_cons_self, rfl⟩⟩
      rw [List.mem_singleton.mp member]
      exact ⟨.inl rfl, by simp⟩
  | some l =>
      simp only [https l found, Bool.not_true, Bool.false_eq_true, if_false]
      refine (((tells_unless rfl rfl).append (Quiet.tells (quiet_usedBy model _ _))).append
        (Quiet.tells ?_)).congr (by simp [hasCertificate_iff])
      simp only [quiet_flatMap]
      intro host _
      split <;> simp [dangling]

/-! ## The validator reports the references that lead nowhere -/

def Missing (model : Model) (target : Ref) : Prop := target.key ∉ keysOf model target.kind

theorem listener_tells (l : Listener) : Tells ⟨.listener, l.key⟩
    (listenerSetIssues model l ++ listenerIssues runtime caps model l ++ tlsReferenceIssues model l)
    (∃ target ∈ listenerRefs l, Missing model target) := by
  refine (((setIssues_tells ?_).append (listenerIssues_tells runtime caps l)).append
    (tlsReferenceIssues_tells l)).congr ?_
  · exact fun _ => ⟨rfl, rfl⟩
  · simp [listenerRefs, Missing, or_and_right, exists_or]
    grind

theorem httpRoute_tells {r : HttpRoute}
    (fits : protocolMismatch model r.listener httpProtocols = none) :
    Tells ⟨.httpRoute, r.key⟩ (httpRouteIssues model r ++ routeSetIssues model r)
      (∃ target ∈ httpRouteRefs true r, Missing model target) := by
  refine ((httpRouteIssues_tells fits).append (setIssues_tells ?_)).congr ?_
  · exact fun _ => ⟨rfl, rfl⟩
  · cases hosts : r.hosts <;>
      simp [httpRouteRefs, listenerRef, Missing, hosts, or_and_right, exists_or]
    all_goals grind

theorem passthrough_tells {r : PassthroughRoute}
    (fits : protocolMismatch model r.listener [.tlsPassthrough] = none) :
    Tells ⟨.passthroughRoute, r.key⟩ (passthroughRouteIssues model r)
      (∃ target ∈ passthroughRouteRefs true r, Missing model target) := by
  refine (passthroughRouteIssues_tells fits).congr ?_
  cases snis : r.snis <;> cases action : r.action <;>
    simp [passthroughRouteRefs, listenerRef, Missing, snis, action]
  all_goals grind

/-- Where references lead somewhere, they lead to something that fits. -/
structure Settled (model : Model) : Prop where
  http : ∀ r ∈ model.httpRoutes, protocolMismatch model r.listener httpProtocols = none
  passthrough : ∀ r ∈ model.passthroughRoutes,
    protocolMismatch model r.listener [.tlsPassthrough] = none
  material : ∀ p ∈ model.pools, ∀ key ∈ p.upstreamTls.bind UpstreamTls.caBundle, ∀ certificate,
    model.certificates.find? (·.key = key) = some certificate → certificate.materialRef ≠ none
  https : ∀ s ∈ model.sniBindings, ∀ l, listenerOf model s.listener = some l → l.isHttps = true

/-- What the checks of references report about a resource. -/
inductive Reports (model : Model) : Ref → List ModelIssue → List Ref → Prop where
  | listener {l : Listener} (listed : l ∈ model.listeners) :
      Reports model ⟨.listener, l.key⟩ (listenerSetIssues model l ++ listenerIssues runtime caps model l ++
        tlsReferenceIssues model l) (listenerRefs l)
  | httpRoute {r : HttpRoute} (listed : r ∈ model.httpRoutes) :
      Reports model ⟨.httpRoute, r.key⟩ (httpRouteIssues model r ++ routeSetIssues model r)
        (httpRouteRefs true r)
  | passthroughRoute {r : PassthroughRoute} (listed : r ∈ model.passthroughRoutes) :
      Reports model ⟨.passthroughRoute, r.key⟩ (passthroughRouteIssues model r) (passthroughRouteRefs true r)
  | backend {b : Backend} (listed : b ∈ model.backends) :
      Reports model ⟨.backend, b.key⟩ (backendIssues model b) [⟨.pool, b.pool⟩]
  | pool {p : Pool} (listed : p ∈ model.pools) :
      Reports model ⟨.pool, p.key⟩ (upstreamTlsIssues model p) (poolRefs p)
  | binding {s : SniCertificateBinding} (listed : s ∈ model.sniBindings) :
      Reports model ⟨.sniBinding, s.key⟩ (bindingIssues runtime model s) (bindingRefs s)

theorem Reports.tells {source : Ref} {issues : List ModelIssue} {refs : List Ref}
    (reports : Reports runtime caps model source issues refs) (settled : Settled model) :
    Tells source issues (∃ target ∈ refs, Missing model target) := by
  cases reports with
  | listener listed => exact listener_tells runtime caps _
  | httpRoute listed => exact httpRoute_tells (settled.http _ listed)
  | passthroughRoute listed => exact passthrough_tells (settled.passthrough _ listed)
  | backend listed => exact (backendIssues_tells _).congr (by simp [Missing])
  | pool listed =>
      exact (upstreamTlsIssues_tells (settled.material _ listed)).congr (by simp [poolRefs, Missing])
  | binding listed =>
      exact (bindingIssues_tells runtime (settled.https _ listed)).congr
        (by simp [bindingRefs, Missing])

theorem refers_iff {source target : Ref} : Refers true model source target ↔
    ∃ issues refs, Reports runtime caps model source issues refs ∧ target ∈ refs := by
  constructor
  · rintro (⟨l, listed, rfl, inside⟩ | ⟨r, listed, rfl, inside⟩ | ⟨r, listed, rfl, inside⟩ |
      ⟨b, listed, rfl, rfl⟩ | ⟨p, listed, rfl, inside⟩ | ⟨s, listed, rfl, inside⟩)
    · exact ⟨_, _, .listener listed, inside⟩
    · exact ⟨_, _, .httpRoute listed, inside⟩
    · exact ⟨_, _, .passthroughRoute listed, inside⟩
    · exact ⟨_, _, .backend listed, List.mem_cons_self⟩
    · exact ⟨_, _, .pool listed, inside⟩
    · exact ⟨_, _, .binding listed, inside⟩
  · rintro ⟨issues, refs, reports, inside⟩
    unfold Refers
    cases reports <;> grind

theorem Quiet.silent {issues : List ModelIssue} {issue : ModelIssue} (quiet : Quiet issues)
    (dangles : dangling issue.code = true) : issue ∈ issues ↔ False :=
  iff_false_intro fun member => by simp [quiet issue member] at dangles

theorem mem_tlsIssues {issue : ModelIssue} (dangles : dangling issue.code = true) :
    issue ∈ tlsIssues runtime model ↔
      issue ∈ model.listeners.flatMap (tlsReferenceIssues model) ∨
        issue ∈ model.sniBindings.flatMap (bindingIssues runtime model) := by
  have intents := Quiet.silent (quiet_flatMap.mpr fun c (_ : c ∈ model.certificates) =>
    quiet_acmeIntentIssues runtime c) dangles
  have policies := Quiet.silent (quiet_flatMap.mpr fun t (_ : t ∈ model.tlsPolicies) =>
    quiet_hstsIssues t) dangles
  have bound := Quiet.silent (quiet_flatMap.mpr fun g (_ : g ∈ bindingsByListener model) =>
    quiet_bindingConflicts g.1 [] (g.2.flatMap fun binding =>
      binding.hosts.map fun host => (host, binding.certificate))) dangles
  have covered := Quiet.silent (quiet_flatMap.mpr fun r (_ : r ∈ model.httpRoutes) =>
    quiet_missingBindingIssues model r) dangles
  simp only [tlsIssues, List.mem_append, intents, policies, bound, covered, or_false]
  refine ⟨?_, fun member => member.imp_left .inl⟩
  rintro ((member | default) | member)
  · exact .inl member
  · refine ((Quiet.silent (quiet_flatMap.mpr fun l _ => ?_) dangles).mp default).elim
    split
    · exact quiet_nil
    · exact quiet_usedBy model _ _
  · exact .inr member

theorem mem_validateModel {issue : ModelIssue} (dangles : dangling issue.code = true) :
    issue ∈ validateModel runtime caps model ↔
      ∃ source issues refs, Reports runtime caps model source issues refs ∧ issue ∈ issues := by
  have pools := Quiet.silent (quiet_flatMap.mpr fun p (_ : p ∈ model.pools) =>
    quiet_poolIssues model p) dangles
  have streams := Quiet.silent (quiet_flatMap.mpr fun l (_ : l ∈ model.listeners) =>
    show Quiet (streamRealipIssues caps l) by simp [streamRealipIssues, dangling]) dangles
  have shadows := Quiet.silent (quiet_flatMap.mpr fun r (_ : r ∈ model.httpRoutes) =>
    quiet_shadowIssues model r.key 0 [] (r.sourceRules.getD [])) dangles
  have paths := Quiet.silent (quiet_flatMap.mpr fun r (_ : r ∈ model.httpRoutes) =>
    show Quiet (acmePathIssues r) by simp [acmePathIssues, dangling]) dangles
  have strict := Quiet.silent (show Quiet (strictIssues runtime model) by
    simp [strictIssues, dangling]) dangles
  have compiled := Quiet.silent (show Quiet (compileIssues runtime model) by
    simp [compileIssues, dangling]) dangles
  simp only [validateModel, mem_tlsIssues runtime dangles, List.mem_append, pools, streams, shadows,
    paths, strict, compiled, (quiet_conflictIssues runtime model).silent dangles,
    (quiet_vhostIssues runtime caps model).silent dangles, or_false, List.mem_flatMap]
  constructor
  · rintro ((((((((⟨b, listed, member⟩ | ⟨l, listed, member⟩) | ⟨l, listed, member⟩) |
      ⟨r, listed, member⟩) | ⟨r, listed, member⟩) | ⟨r, listed, member⟩) | ⟨p, listed, member⟩) |
      (⟨l, listed, member⟩ | ⟨s, listed, member⟩)))
    · exact ⟨_, _, _, .backend listed, member⟩
    · exact ⟨_, _, _, .listener listed, by simp [member]⟩
    · exact ⟨_, _, _, .listener listed, by simp [member]⟩
    · exact ⟨_, _, _, .httpRoute listed, by simp [member]⟩
    · exact ⟨_, _, _, .passthroughRoute listed, member⟩
    · exact ⟨_, _, _, .httpRoute listed, by simp [member]⟩
    · exact ⟨_, _, _, .pool listed, member⟩
    · exact ⟨_, _, _, .listener listed, by simp [member]⟩
    · exact ⟨_, _, _, .binding listed, member⟩
  · rintro ⟨source, issues, refs, reports, member⟩
    cases reports with
    | listener listed | httpRoute listed =>
        simp only [List.mem_append] at member
        grind
    | _ => grind

/-! ## Agreement -/

/-- Whatever is removed, an item that is found was found before. -/
theorem find?_kept {α : Type} {items : List α} {keyOf : α → String} {name : String} {item : α}
    (found : (items.filter (keyOf · ≠ name)).find? (keyOf · = key) = some item) :
    items.find? (keyOf · = key) = some item := by
  rw [List.find?_filter] at found
  have same : keyOf item ≠ name ∧ keyOf item = key := by simpa using List.find?_some found
  rw [← found]
  congr 1
  funext other
  grind

theorem mem_without :
    (∀ l, l ∈ (without ref model).listeners ↔ l ∈ model.listeners ∧ ref ≠ ⟨.listener, l.key⟩) ∧
    (∀ r, r ∈ (without ref model).httpRoutes ↔ r ∈ model.httpRoutes ∧ ref ≠ ⟨.httpRoute, r.key⟩) ∧
    (∀ r, r ∈ (without ref model).passthroughRoutes ↔
      r ∈ model.passthroughRoutes ∧ ref ≠ ⟨.passthroughRoute, r.key⟩) ∧
    (∀ b, b ∈ (without ref model).backends ↔ b ∈ model.backends ∧ ref ≠ ⟨.backend, b.key⟩) ∧
    (∀ p, p ∈ (without ref model).pools ↔ p ∈ model.pools ∧ ref ≠ ⟨.pool, p.key⟩) ∧
    ∀ s, s ∈ (without ref model).sniBindings ↔ s ∈ model.sniBindings ∧ ref ≠ ⟨.sniBinding, s.key⟩ := by
  obtain ⟨kind, name⟩ := ref
  cases kind <;> simp [without] <;> grind

theorem refers_without {looked : Bool} {source target : Ref} :
    Refers looked (without ref model) source target ↔
      Refers looked model source target ∧ ref ≠ source := by
  simp only [Refers, mem_without]
  grind

theorem listenerOf_without {l : Listener} (found : listenerOf (without ref model) key = some l) :
    listenerOf model key = some l := by
  obtain ⟨kind, name⟩ := ref
  cases kind with
  | listener =>
      exact find?_kept (by simpa [listenerOf, lastWith, without] using found)
  | _ => exact found

theorem certificate_without {certificate : Certificate}
    (found : (without ref model).certificates.find? (·.key = key) = some certificate) :
    model.certificates.find? (·.key = key) = some certificate := by
  obtain ⟨kind, name⟩ := ref
  cases kind with
  | certificate => exact find?_kept found
  | _ => exact found

theorem settled_of_valid (valid : validateModel runtime caps model = []) : Settled model := by
  simp only [validateModel, tlsIssues, List.append_eq_nil_iff, List.flatMap_eq_nil_iff] at valid
  obtain ⟨⟨⟨⟨⟨⟨⟨⟨⟨-, https⟩, passthroughs⟩, -⟩, -⟩, -⟩, -⟩, upstreams⟩,
    ⟨⟨-, bindings⟩, -⟩, -⟩, -⟩ := valid
  refine ⟨fun r listed => ?_, fun r listed => ?_, fun p listed => ?_, fun s listed => ?_⟩
  · have nothing := https r listed
    cases mismatch : protocolMismatch model r.listener httpProtocols with
    | none => rfl
    | some actual => simp [httpRouteIssues, wantProtocol, mismatch] at nothing
  · have nothing := passthroughs r listed
    cases mismatch : protocolMismatch model r.listener [.tlsPassthrough] with
    | none => rfl
    | some actual => simp [passthroughRouteIssues, wantProtocol, mismatch] at nothing
  · intro key bundled certificate found absent
    have nothing := upstreams p listed
    obtain ⟨tls, given, bundle⟩ := Option.bind_eq_some_iff.mp bundled
    simp [upstreamTlsIssues, given, bundle, found, absent] at nothing
  · intro l found
    have nothing := bindings s listed
    cases https : l.isHttps with
    | true => rfl
    | false => simp [bindingIssues, found, https] at nothing

theorem Settled.without (settled : Settled model) : Settled (Web.without ref model) := by
  have fits : ∀ {key : String} {wanted : List Store.ListenerProtocol},
      protocolMismatch model key wanted = none →
        protocolMismatch (Web.without ref model) key wanted = none := by
    intro key wanted fits
    unfold protocolMismatch at fits ⊢
    cases found : listenerOf (Web.without ref model) key with
    | none => rfl
    | some l => rwa [listenerOf_without found] at fits
  obtain ⟨-, routes, passthroughs, -, pools, bindings⟩ := @mem_without model ref
  exact ⟨fun r listed => fits (settled.http r ((routes r).mp listed).1),
    fun r listed => fits (settled.passthrough r ((passthroughs r).mp listed).1),
    fun p listed key bundled certificate found =>
      settled.material p ((pools p).mp listed).1 key bundled certificate (certificate_without found),
    fun s listed l found => settled.https s ((bindings s).mp listed).1 l (listenerOf_without found)⟩

def Hosted (model : Model) (source : Ref) : Prop :=
  (∀ r ∈ model.httpRoutes, source = ⟨.httpRoute, r.key⟩ → r.hosts ≠ []) ∧
    ∀ r ∈ model.passthroughRoutes, source = ⟨.passthroughRoute, r.key⟩ → r.snis ≠ []

theorem Refers.all {source target : Ref} (refers : Refers true model source target) :
    Refers false model source target := by
  simp only [Refers, httpRouteRefs, passthroughRouteRefs, listenerRef] at refers ⊢
  grind

theorem Refers.looked {source target : Ref} (refers : Refers false model source target)
    (hosted : Hosted model source) : Refers true model source target := by
  obtain ⟨routes, passthroughs⟩ := hosted
  simp only [Refers, httpRouteRefs, passthroughRouteRefs, listenerRef] at refers ⊢
  grind

theorem Refers.kinds {looked : Bool} {source target : Ref} (refers : Refers looked model source target) :
    source.kind ≠ target.kind := by
  obtain ⟨kind, key⟩ := target
  simp only [Refers, listenerRefs, httpRouteRefs, passthroughRouteRefs, listenerRef, poolRefs,
    bindingRefs] at refers
  cases kind <;> simp at refers <;> grind

theorem present_of_valid (valid : validateModel runtime caps model = []) {source target : Ref}
    (refers : Refers true model source target) : ¬Missing model target := by
  intro missing
  obtain ⟨issues, refs, reports, inside⟩ := (refers_iff runtime caps).mp refers
  obtain ⟨issue, member, dangles⟩ :=
    (reports.tells runtime caps (settled_of_valid runtime caps valid)).some ⟨target, inside, missing⟩
  have reported := (mem_validateModel runtime caps dangles).mpr ⟨_, _, _, reports, member⟩
  simp [valid] at reported

theorem relations_agree (valid : validateModel runtime caps model = []) (shaped : ShapedModel model)
    (filled : ref.key ≠ "") (removable : ref.kind ≠ .httpRoute ∧ ref.kind ≠ .passthroughRoute) :
    (∀ edge ∈ (relationsOf model ref).usedBy, Hosted model edge.source →
      ∃ issue ∈ validateModel runtime caps (without ref model),
        dangling issue.code = true ∧ Names issue edge.source) ∧
    (∀ issue ∈ validateModel runtime caps (without ref model), dangling issue.code = true →
      ∃ edge ∈ (relationsOf model ref).usedBy, Names issue edge.source) ∧
    ∀ use ∈ (relationsOf model ref).uses, use.2 = false := by
  have settled : Settled (without ref model) := (settled_of_valid runtime caps valid).without
  refine ⟨fun edge used hosted => ?_, fun issue reported dangles => ?_, fun use used => ?_⟩
  · simp only [relationsOf, List.mem_filter, decide_eq_true_eq] at used
    have refers := ((joins_edgesOf shaped).mp ⟨edge, used.1, rfl, rfl⟩).2
    have kept : Refers true (without ref model) edge.source edge.target :=
      refers_without.mpr ⟨refers.looked hosted, fun same => refers.kinds (by rw [← same, used.2])⟩
    obtain ⟨issues, refs, reports, inside⟩ := (refers_iff runtime caps).mp kept
    have missing : Missing (without ref model) edge.target := by
      rw [Missing, mem_keysOf_without, used.2]
      exact fun present => present.2 rfl
    have tells := reports.tells runtime caps settled
    obtain ⟨issue, member, dangles⟩ := tells.some ⟨edge.target, inside, missing⟩
    exact ⟨issue, (mem_validateModel runtime caps dangles).mpr ⟨_, _, _, reports, member⟩, dangles,
      (tells.only issue member dangles).1⟩
  · obtain ⟨source, issues, refs, reports, member⟩ :=
      (mem_validateModel runtime caps dangles).mp reported
    obtain ⟨names, target, inside, missing⟩ :=
      (reports.tells runtime caps settled).only issue member dangles
    have refers := (refers_without.mp ((refers_iff runtime caps).mpr ⟨_, _, reports, inside⟩)).1
    have same : ref = target := by
      by_contra other
      exact present_of_valid runtime caps valid refers fun present =>
        missing (mem_keysOf_without.mpr ⟨present, other⟩)
    subst same
    obtain ⟨edge, listed, rfl, aim⟩ := (joins_edgesOf shaped).mpr ⟨filled, refers.all⟩
    exact ⟨edge, by simp [relationsOf, listed, aim], names⟩
  · obtain ⟨edge, listed, rfl⟩ := List.mem_map.mp used
    simp only [List.mem_filter, decide_eq_true_eq] at listed
    have refers := ((joins_edgesOf shaped).mp ⟨edge, listed.1, rfl, rfl⟩).2
    have hosted : Hosted model edge.source := by
      rw [listed.2]
      exact ⟨fun r _ same => absurd (congrArg Ref.kind same) removable.1,
        fun r _ same => absurd (congrArg Ref.kind same) removable.2⟩
    have present := present_of_valid runtime caps valid (refers.looked hosted)
    simpa [Missing] using present


end

def webListener (acceptProxyProtocol : Option InboundProxyProtocol) : Listener :=
  { key := "web", bind := "10.0.0.1", port := 80, enabled := true
    body := .http { acceptProxyProtocol := acceptProxyProtocol } }

def apiRoute (hosts : List String) : HttpRoute :=
  { key := "api", listener := "web", hosts := hosts, priority := 0, action := .reject 404 }

def routed (hosts : List String) : Model :=
  { listeners := [webListener none], httpRoutes := [apiRoute hosts] }

def web : Ref := ⟨.listener, "web"⟩

def oldEngine : ValidationCapabilities := ⟨true, none, none⟩

theorem relations_agree_routed :
    ∃ edge ∈ (relationsOf (routed ["a.test"]) web).usedBy,
      ∃ issue ∈ validateModel plainRuntime oldEngine (without web (routed ["a.test"])),
        dangling issue.code = true ∧ Names issue edge.source := by
  have shaped : ShapedModel (routed ["a.test"]) := by
    refine ⟨fun l listed text inside => ?_, by simp [routed, apiRoute, Shaped]⟩
    obtain rfl := List.mem_singleton.mp listed
    cases inside
  refine ⟨_, List.mem_cons_self, ?_⟩
  refine (relations_agree plainRuntime oldEngine (by decide +kernel) shaped (by decide)
    (by decide)).1 _ List.mem_cons_self ⟨?_, ?_⟩
  · simp [routed, apiRoute]
  · simp [routed]

def proxied : Model := { listeners := [webListener (some ⟨["@a b"]⟩)] }

def nameless : Model :=
  { pools := [{ key := "", protocolClass := .http, algorithm := .roundRobin }]
    backends := [{ key := "a1", pool := "", host := "10.0.0.1", port := 8080, weight := 1 }] }

/-- The report has the key of an input as its subject, a route without hosts has no
report, the range is listed as missing, and a pool without a name has no users. -/
theorem api_named_by_input :
    (∀ model ∈ [routed ["a.test"], routed [], proxied, nameless],
      decodeModel plainRuntime model = [] ∧ validateModel plainRuntime oldEngine model = []) ∧
    (∀ model ∈ [routed ["a.test"], routed []],
      (relationsOf model web).usedBy.map Edge.source = [⟨.httpRoute, "api"⟩]) ∧
    ((validateModel plainRuntime oldEngine (without web (routed ["a.test"]))).map fun issue =>
      (issue.code, issue.subjects)) = [(.unknownListener, ["api#0"])] ∧
    validateModel plainRuntime oldEngine (without web (routed [])) = [] ∧
    (relationsOf proxied web).uses.map Prod.snd = [true] ∧
    (relationsOf nameless ⟨.pool, ""⟩).usedBy.map Edge.source = [] ∧
    ((validateModel plainRuntime oldEngine (without ⟨.pool, ""⟩ nameless)).map fun issue =>
      (issue.code, issue.subjects)) = [(.orphanBackend, ["a1", ""])] := by
  decide +kernel

end Web

end Barycenter
