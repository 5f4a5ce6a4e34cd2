import Barycenter.Store.Shown

/-!
# What every row keeps to

The rows of the working tables come from resources only: a listener or a route
has the row of some listener or route, backends are enabled, and certificates
keep to their constraints.  So the columns that foreign keys look at hold what
the resource that is read from the row refers to, and the questions that the
database asks before a change are questions about the registry.
-/

namespace Barycenter

namespace Store

open Config

def Every {R : Type} (table : OrderedMap String R) (holds : String → R → Prop) : Prop :=
  ∀ key row, table.get? key = some row → holds key row

section Every

variable {R : Type} {table : OrderedMap String R} {holds : String → R → Prop}

theorem Every.empty : Every (OrderedMap.empty : OrderedMap String R) holds := by
  intro key row found
  cases found

theorem Every.set {key : String} {row : R} (every : Every table holds) (here : holds key row) :
    Every (table.set key row) holds := by
  intro other stored found
  rw [OrderedMap.get?_set] at found
  split at found
  · next same =>
      cases found
      exact same ▸ here
  · exact every other stored found

theorem Every.erase {key : String} (every : Every table holds) :
    Every (table.erase key) holds := by
  intro other stored found
  rw [OrderedMap.get?_erase] at found
  split at found
  · cases found
  · exact every other stored found

theorem Every.filterValues {kept : R → Bool} (every : Every table holds) :
    Every (table.filterValues kept) holds := by
  intro other stored found
  rw [OrderedMap.get?_filterValues, Option.filter_eq_some_iff] at found
  exact every other stored found.1

end Every

structure RowsKept (tables : Tables) : Prop where
  backends : Every tables.backends fun _ row => row.enabled = true
  certificates : Every tables.certificates fun key row =>
    ∀ check ∈ certificateChecks key row, check.2 = true
  listeners : Every tables.listeners fun _ row => ∃ listener, standingRow listener = row
  httpRoutes : Every tables.httpRoutes fun _ row => ∃ route listener, routedRow route listener = row
  passthroughRoutes :
    Every tables.passthroughRoutes fun _ row => ∃ route listener, passedRow route listener = row

theorem RowsKept.empty : RowsKept {} :=
  { backends := Every.empty
    certificates := Every.empty
    listeners := Every.empty
    httpRoutes := Every.empty
    passthroughRoutes := Every.empty }

/-! ## References of rows -/

theorem httpProfileOf_defaultAction (row : ListenerRow) :
    (httpProfileOf row).bind HttpProfile.defaultAction =
      outcomeOf row.httpDefaultPool row.httpDefaultReject := by
  simp only [httpProfileOf]
  generalize (if row.httpStrictPriority = some true then some true else none) = priority
  split
  · next absent =>
      have nothing := congrArg HttpProfile.defaultAction absent
      exact nothing.symm
  · rfl

theorem references_standingRow (listener : Listener) :
    bodyReferences (listenerBodyOf (standingRow listener)) = bodyReferences listener.body := by
  obtain ⟨key, bind, port, enabled, sourceAllow, body⟩ := listener
  cases body with
  | http body | https body =>
      simp [standingRow, listenerBodyOf, bodyReferences, withRealIp, withProfile, baseRow,
        httpProfileOf_defaultAction]
  | tlsPassthrough body =>
      simp [standingRow, listenerBodyOf, bodyReferences, baseRow]
  | tcp body | udp body => rfl

theorem references_routedRow (route : HttpRoute) (listener : ListenerRef) :
    actionReferences (httpActionOf (routedRow route listener)) =
      actionReferences route.action := by
  unfold routedRow
  cases route.action <;> rfl

theorem passed_action (route : PassthroughRoute) (listener : ListenerRef) :
    (passthroughRouteOf route.key (passedRow route listener)).action = route.action := by
  unfold passthroughRouteOf passedRow
  cases route.action <;> rfl

theorem ne_of_kind {left right : ResourceName} (other : left.kind ≠ right.kind) : left ≠ right :=
  fun same => other (congrArg ResourceName.kind same)

section Names

variable (key : String)

@[simp]
theorem kind_poolName : (poolName key).kind = .pool := rfl

@[simp]
theorem kind_listenerName : (listenerName key).kind = .listener := rfl

@[simp]
theorem kind_certificateName : (certificateName key).kind = .certificate := rfl

@[simp]
theorem kind_policyName : (policyName key).kind = .tlsPolicy := rfl

end Names

variable {left right : String}

theorem poolName_eq : poolName left = poolName right ↔ left = right :=
  ⟨fun same => congrArg ResourceName.key same, fun same => same ▸ rfl⟩

variable {key : String}

theorem refersToPool_classRef {protocolClass : ProtocolClass}
    {outcome : Option SniOutcome} :
    refersToPool key (classRef protocolClass outcome) = true ↔
      ∃ ref ∈ outcomeReferences protocolClass outcome, ref.target = poolName key := by
  unfold refersToPool classRef outcomeReferences
  cases outcomePool outcome <;> simp [poolReference, poolName_eq]

theorem poolRefs_standingRow {listener : Listener} :
    (standingRow listener).poolRefs.any (refersToPool key) = true ↔
      ∃ ref ∈ bodyReferences listener.body, ref.target = poolName key := by
  obtain ⟨listenerKey, bind, port, enabled, sourceAllow, body⟩ := listener
  cases body with
  | http body =>
      simp only [standingRow, ListenerRow.poolRefs, bodyReferences, withRealIp, withProfile,
        baseRow, ← refersToPool_classRef]
      simp [refersToPool]
  | https body =>
      have policy : policyName body.tls.policy ≠ poolName key := ne_of_kind (by simp)
      have certificate : certificateName body.tls.defaultCertificate ≠ poolName key :=
        ne_of_kind (by simp)
      simp only [standingRow, ListenerRow.poolRefs, bodyReferences, withRealIp, withProfile,
        baseRow, List.mem_append, or_and_right, exists_or, ← refersToPool_classRef]
      simp [refersToPool, plainReference, policy, certificate]
  | tlsPassthrough body =>
      simp only [standingRow, ListenerRow.poolRefs, bodyReferences, baseRow, List.mem_append,
        or_and_right, exists_or, ← refersToPool_classRef]
      simp [refersToPool]
  | tcp body | udp body =>
      simp [standingRow, ListenerRow.poolRefs, bodyReferences, baseRow, refersToPool,
        poolReference, poolName_eq]

/-! ## Who refers -/

def backendReference (pool : String) : ResourceReference :=
  { target := poolName pool, pinned := none, cascades := true }

def bindingReference (listener : String) : ResourceReference :=
  { target := listenerName listener
    pinned := some (suitsListener fun protocol => decide (protocol = .https))
    cascades := true }

def passthroughListener (listener : String) : ResourceReference :=
  listenerReference (fun protocol => decide (protocol = .tlsPassthrough)) listener

variable {wanted : ResourceReference → Prop}

theorem exists_reference {tables : Tables} :
    (∃ other item, shown tables other = some item ∧ ∃ ref ∈ resourceRefs item, wanted ref) ↔
      (∃ key row, tables.backends.get? key = some row ∧ wanted (backendReference row.pool)) ∨
      (∃ key row, tables.listeners.get? key = some row ∧
        ∃ ref ∈ bodyReferences (listenerBodyOf row), wanted ref) ∨
      (∃ key row, tables.httpRoutes.get? key = some row ∧
        (wanted (listenerReference ListenerProtocol.httpFamily row.listener.key) ∨
          ∃ ref ∈ actionReferences (httpActionOf row), wanted ref)) ∨
      (∃ key row, tables.passthroughRoutes.get? key = some row ∧
        (wanted (passthroughListener row.listener.key) ∨
          ∃ ref ∈ passthroughReferences (passthroughRouteOf key row).action, wanted ref)) ∨
      ∃ key row, tables.sniBindings.get? key = some row ∧
        (wanted (bindingReference row.listener.key) ∨
          wanted (plainReference (certificateName row.certificate))) := by
  constructor
  · rintro ⟨⟨kind, key, fixed⟩, item, found, ref, member, holds⟩
    cases kind with
    | engine | pool | certificate | tlsPolicy | addressSet =>
        obtain ⟨row, _, rfl⟩ := Option.map_eq_some_iff.mp found
        cases member
    | backend =>
        obtain ⟨row, stored, rfl⟩ := Option.map_eq_some_iff.mp found
        obtain rfl := List.mem_singleton.mp member
        exact .inl ⟨key, row, stored, holds⟩
    | listener =>
        obtain ⟨row, stored, rfl⟩ := Option.map_eq_some_iff.mp found
        exact .inr (.inl ⟨key, row, stored, ref, member, holds⟩)
    | httpRoute =>
        obtain ⟨row, stored, rfl⟩ := Option.map_eq_some_iff.mp found
        refine .inr (.inr (.inl ⟨key, row, stored, ?_⟩))
        rcases List.mem_cons.mp member with rfl | rest
        · exact .inl holds
        · exact .inr ⟨ref, rest, holds⟩
    | passthroughRoute =>
        obtain ⟨row, stored, rfl⟩ := Option.map_eq_some_iff.mp found
        refine .inr (.inr (.inr (.inl ⟨key, row, stored, ?_⟩)))
        rcases List.mem_cons.mp member with rfl | rest
        · exact .inl holds
        · exact .inr ⟨ref, rest, holds⟩
    | sniBinding =>
        obtain ⟨row, stored, rfl⟩ := Option.map_eq_some_iff.mp found
        refine .inr (.inr (.inr (.inr ⟨key, row, stored, ?_⟩)))
        rcases List.mem_cons.mp member with rfl | rest
        · exact .inl holds
        · exact .inr (List.mem_singleton.mp rest ▸ holds)
  · have present {kind : ResourceKind} (several : kind ≠ .engine) {key : String}
        {item : Resource} (found : shown tables (named kind key several) = some item)
        {ref : ResourceReference} (member : ref ∈ resourceRefs item) (holds : wanted ref) :
        ∃ other item, shown tables other = some item ∧
          ∃ ref ∈ resourceRefs item, wanted ref :=
      ⟨_, item, found, ref, member, holds⟩
    rintro (⟨key, row, stored, holds⟩ | ⟨key, row, stored, ref, member, holds⟩ |
      ⟨key, row, stored, holds | ⟨ref, member, holds⟩⟩ |
      ⟨key, row, stored, holds | ⟨ref, member, holds⟩⟩ |
      ⟨key, row, stored, holds | holds⟩)
    · exact @present .backend (by decide) key _
        (Option.map_eq_some_iff.mpr ⟨row, stored, rfl⟩) _ (List.mem_singleton.mpr rfl) holds
    · exact @present .listener (by decide) key _
        (Option.map_eq_some_iff.mpr ⟨row, stored, rfl⟩) ref member holds
    · exact @present .httpRoute (by decide) key _
        (Option.map_eq_some_iff.mpr ⟨row, stored, rfl⟩) _ List.mem_cons_self holds
    · exact @present .httpRoute (by decide) key _
        (Option.map_eq_some_iff.mpr ⟨row, stored, rfl⟩) ref (List.mem_cons_of_mem _ member)
        holds
    · exact @present .passthroughRoute (by decide) key _
        (Option.map_eq_some_iff.mpr ⟨row, stored, rfl⟩) _ List.mem_cons_self holds
    · exact @present .passthroughRoute (by decide) key _
        (Option.map_eq_some_iff.mpr ⟨row, stored, rfl⟩) ref (List.mem_cons_of_mem _ member)
        holds
    · exact @present .sniBinding (by decide) key _
        (Option.map_eq_some_iff.mpr ⟨row, stored, rfl⟩) _ List.mem_cons_self holds
    · exact @present .sniBinding (by decide) key _
        (Option.map_eq_some_iff.mpr ⟨row, stored, rfl⟩) _
        (List.mem_cons_of_mem _ (List.mem_singleton.mpr rfl)) holds

/-! ## The questions of the database -/

theorem any_values {R : Type} {table : OrderedMap String R} {asked : R → Bool} :
    table.values.any asked = true ↔
      ∃ key row, table.get? key = some row ∧ asked row = true := by
  simp only [List.any_eq_true, OrderedMap.mem_values_iff]
  constructor
  · rintro ⟨row, ⟨key, stored⟩, holds⟩
    exact ⟨key, row, stored, holds⟩
  · rintro ⟨key, row, stored, holds⟩
    exact ⟨row, ⟨key, stored⟩, holds⟩

variable {ref : ResourceReference} {name : ResourceName}

theorem kind_of_target (target : ref.target = name) : ref.target.kind = name.kind :=
  congrArg ResourceName.kind target

theorem outcomeReferences_pool {protocolClass : ProtocolClass} {outcome : Option SniOutcome}
    (member : ref ∈ outcomeReferences protocolClass outcome)
    (target : ref.target = poolName key) : ref = poolReference protocolClass key := by
  obtain ⟨other, _, rfl⟩ := List.mem_map.mp member
  exact congrArg (poolReference protocolClass) (poolName_eq.mp target)

theorem bodyReferences_pool {body : ListenerBody}
    (member : ref ∈ bodyReferences body) (target : ref.target = poolName key) :
    ∃ protocolClass, ref = poolReference protocolClass key := by
  cases body with
  | http body => exact ⟨_, outcomeReferences_pool member target⟩
  | https body =>
      rcases List.mem_append.mp member with outcome | tls
      · exact ⟨_, outcomeReferences_pool outcome target⟩
      · simp only [List.mem_cons, List.not_mem_nil, or_false] at tls
        rcases tls with rfl | rfl
        · cases kind_of_target target
        · cases kind_of_target target
  | tlsPassthrough body =>
      rcases List.mem_append.mp member with outcome | outcome
      · exact ⟨_, outcomeReferences_pool outcome target⟩
      · exact ⟨_, outcomeReferences_pool outcome target⟩
  | tcp body =>
      obtain rfl := List.mem_singleton.mp member
      exact ⟨.tcp, congrArg (poolReference .tcp) (poolName_eq.mp target)⟩
  | udp body =>
      obtain rfl := List.mem_singleton.mp member
      exact ⟨.udp, congrArg (poolReference .udp) (poolName_eq.mp target)⟩

section Questions

variable {tables : Tables} (kept : RowsKept tables)

include kept

variable {key : String}

theorem poolReferenced_iff (aims : ∀ ref, wanted ref → ref.target = poolName key)
    (takes : ∀ protocolClass, wanted (poolReference protocolClass key))
    (leaves : ¬ wanted (backendReference key)) :
    (∃ other item, shown tables other = some item ∧
        ∃ ref ∈ resourceRefs item, wanted ref) ↔ poolReferenced tables key = true := by
  have never {ref : ResourceReference} (other : ref.target.kind ≠ .pool) : ¬ wanted ref :=
    fun holds => other (kind_of_target (aims ref holds))
  have backends : ¬ ∃ name row, tables.backends.get? name = some row ∧
      wanted (backendReference row.pool) := by
    rintro ⟨name, row, _, holds⟩
    exact leaves (poolName_eq.mp (aims _ holds) ▸ holds)
  have bindings : ¬ ∃ name row, tables.sniBindings.get? name = some row ∧
      (wanted (bindingReference row.listener.key) ∨
        wanted (plainReference (certificateName row.certificate))) := by
    rintro ⟨name, row, _, holds | holds⟩
    · exact never (by simp [bindingReference]) holds
    · exact never (by simp [plainReference]) holds
  have listeners (name : String) (row : ListenerRow)
      (stored : tables.listeners.get? name = some row) :
      (∃ ref ∈ bodyReferences (listenerBodyOf row), wanted ref) ↔
        row.poolRefs.any (refersToPool key) = true := by
    obtain ⟨listener, rfl⟩ := kept.listeners name row stored
    rw [references_standingRow, poolRefs_standingRow]
    constructor
    · rintro ⟨ref, member, holds⟩
      exact ⟨ref, member, aims ref holds⟩
    · rintro ⟨ref, member, target⟩
      obtain ⟨protocolClass, rfl⟩ := bodyReferences_pool member target
      exact ⟨_, member, takes protocolClass⟩
  have routes (name : String) (row : HttpRouteRow)
      (stored : tables.httpRoutes.get? name = some row) :
      (wanted (listenerReference ListenerProtocol.httpFamily row.listener.key) ∨
          ∃ ref ∈ actionReferences (httpActionOf row), wanted ref) ↔
        refersToPool key row.pool = true := by
    obtain ⟨route, listener, rfl⟩ := kept.httpRoutes name row stored
    rw [references_routedRow, or_iff_right (never (by simp [listenerReference]))]
    unfold routedRow
    cases route.action with
    | proxy pool _ _ _ =>
        simp only [actionReferences, List.mem_singleton, exists_eq_left, refersToPool,
          Option.any_some, decide_eq_true_eq]
        constructor
        · exact fun holds => poolName_eq.mp (aims _ holds)
        · rintro rfl
          exact takes .http
    | redirect _ _ | reject _ => simp [actionReferences, refersToPool]
  have passthrough (name : String) (row : PassthroughRouteRow)
      (stored : tables.passthroughRoutes.get? name = some row) :
      (wanted (passthroughListener row.listener.key) ∨
          ∃ ref ∈ passthroughReferences (passthroughRouteOf name row).action, wanted ref) ↔
        refersToPool key row.pool = true := by
    obtain ⟨route, listener, rfl⟩ := kept.passthroughRoutes name row stored
    have action : (passthroughRouteOf name (passedRow route listener)).action = route.action :=
      passed_action route listener
    rw [action, or_iff_right
      (never (by simp [passthroughListener, listenerReference]))]
    unfold passedRow
    cases route.action with
    | proxy pool =>
        simp only [passthroughReferences, List.mem_singleton, exists_eq_left, refersToPool,
          Option.any_some, decide_eq_true_eq]
        constructor
        · exact fun holds => poolName_eq.mp (aims _ holds)
        · rintro rfl
          exact takes .tcp
    | reject => simp [passthroughReferences, refersToPool]
  rw [exists_reference]
  simp only [backends, bindings, false_or, or_false, poolReferenced, Bool.or_eq_true,
    any_values, or_assoc]
  refine or_congr ?_ (or_congr ?_ ?_)
  · exact exists_congr fun name => exists_congr fun row => and_congr_right (listeners name row)
  · exact exists_congr fun name => exists_congr fun row => and_congr_right (routes name row)
  · exact exists_congr fun name => exists_congr fun row => and_congr_right (passthrough name row)

theorem pinned_pool :
    resources.Pinned (shown tables) (poolName key) ↔ poolReferenced tables key = true :=
  poolReferenced_iff kept (fun _ wanted => wanted.1) (fun _ => ⟨rfl, rfl⟩)
    (fun wanted => by cases wanted.2)

theorem restricted_pool :
    resources.Restricted (shown tables) (poolName key) ↔ poolReferenced tables key = true :=
  poolReferenced_iff kept (fun _ wanted => wanted.1) (fun _ => ⟨rfl, rfl⟩)
    (fun wanted => by cases wanted.2)

end Questions

/-! ## References to listeners, certificates and policies -/

theorem listenerName_eq :
    listenerName left = listenerName right ↔ left = right :=
  ⟨fun same => congrArg ResourceName.key same, fun same => same ▸ rfl⟩

theorem certificateName_eq :
    certificateName left = certificateName right ↔ left = right :=
  ⟨fun same => congrArg ResourceName.key same, fun same => same ▸ rfl⟩

theorem policyName_eq :
    policyName left = policyName right ↔ left = right :=
  ⟨fun same => congrArg ResourceName.key same, fun same => same ▸ rfl⟩

section Listeners

variable {tables : Tables} {key : String}

theorem exists_listenerReference (aims : ∀ ref, wanted ref → ref.target = listenerName key) :
    (∃ other item, shown tables other = some item ∧
        ∃ ref ∈ resourceRefs item, wanted ref) ↔
      (∃ name row, tables.httpRoutes.get? name = some row ∧
        wanted (listenerReference ListenerProtocol.httpFamily row.listener.key)) ∨
      (∃ name row, tables.passthroughRoutes.get? name = some row ∧
        wanted (passthroughListener row.listener.key)) ∨
      ∃ name row, tables.sniBindings.get? name = some row ∧
        wanted (bindingReference row.listener.key) := by
  have never {ref : ResourceReference} (other : ref.target.kind ≠ .listener) : ¬ wanted ref :=
    fun holds => other (kind_of_target (aims ref holds))
  have bodies (row : ListenerRow) : ¬ ∃ ref ∈ bodyReferences (listenerBodyOf row), wanted ref := by
    rintro ⟨ref, member, holds⟩
    have kind := (bodyReferences_spec member).1
    rw [kind_of_target (aims ref holds)] at kind
    exact absurd kind (by simp)
  have actions (row : HttpRouteRow) : ¬ ∃ ref ∈ actionReferences (httpActionOf row), wanted ref := by
    rintro ⟨ref, member, holds⟩
    exact never (by simp [(actionReferences_spec member).1]) holds
  have passthrough (name : String) (row : PassthroughRouteRow) :
      ¬ ∃ ref ∈ passthroughReferences (passthroughRouteOf name row).action, wanted ref := by
    rintro ⟨ref, member, holds⟩
    exact never (by simp [(passthroughReferences_spec member).1]) holds
  have backends (row : BackendRow) : ¬ wanted (backendReference row.pool) :=
    never (by simp [backendReference])
  have certificates (row : SniBindingRow) :
      ¬ wanted (plainReference (certificateName row.certificate)) :=
    never (by simp [plainReference])
  rw [exists_reference]
  simp only [bodies, actions, passthrough, backends, certificates, and_false, exists_false,
    false_or, or_false]

theorem restricted_listener :
    resources.Restricted (shown tables) (listenerName key) ↔
      listenerRouted tables key = true := by
  refine (exists_listenerReference fun _ wanted => wanted.1).trans ?_
  simp only [listenerRouted, Bool.or_eq_true, any_values, decide_eq_true_eq]
  simp [listenerReference, passthroughListener, bindingReference, listenerName_eq]

theorem pinned_listener :
    resources.Pinned (shown tables) (listenerName key) ↔
      (listenerRouted tables key || listenerBound tables key) = true := by
  refine (exists_listenerReference fun _ wanted => wanted.1).trans ?_
  simp only [listenerRouted, listenerBound, Bool.or_eq_true, any_values, decide_eq_true_eq]
  simp [listenerReference, passthroughListener, bindingReference, listenerName_eq, or_assoc]

end Listeners

theorem tlsReferences_standingRow {listener : Listener} :
    ((∃ ref ∈ bodyReferences listener.body,
        ref.target = certificateName key ∧ ref.cascades = false) ↔
      (standingRow listener).tlsDefaultCert = some key) ∧
    ((∃ ref ∈ bodyReferences listener.body,
        ref.target = policyName key ∧ ref.cascades = false) ↔
      (standingRow listener).tlsPolicy = some key) := by
  have outcomes {name : ResourceName} (other : name.kind ≠ .pool)
      (protocolClass : ProtocolClass) (outcome : Option SniOutcome) :
      ¬ ∃ ref ∈ outcomeReferences protocolClass outcome,
        ref.target = name ∧ ref.cascades = false := by
    rintro ⟨ref, member, rfl, _⟩
    exact other (outcomeReferences_spec member).1
  have certificates := @outcomes (certificateName key) (by simp)
  have policies := @outcomes (policyName key) (by simp)
  have apart (left right : String) : policyName left ≠ certificateName right :=
    ne_of_kind (by simp)
  have certificatePool (pool : String) : poolName pool ≠ certificateName key :=
    ne_of_kind (by simp)
  have policyPool (pool : String) : poolName pool ≠ policyName key := ne_of_kind (by simp)
  obtain ⟨listenerKey, bind, port, enabled, sourceAllow, body⟩ := listener
  cases body with
  | http body =>
      exact ⟨by simpa [bodyReferences, standingRow, withRealIp, withProfile, baseRow] using
          certificates _ _,
        by simpa [bodyReferences, standingRow, withRealIp, withProfile, baseRow] using
          policies _ _⟩
  | https body =>
      simp only [bodyReferences, List.mem_append, or_and_right, exists_or, certificates,
        policies, false_or, standingRow, Option.some.injEq]
      simp [plainReference, apart, (apart _ _).symm, certificateName_eq, policyName_eq]
  | tlsPassthrough body =>
      simp only [bodyReferences, List.mem_append, or_and_right, exists_or, certificates,
        policies, standingRow, baseRow]
      simp
  | tcp body | udp body =>
      simp [bodyReferences, standingRow, baseRow, poolReference, certificatePool, policyPool]

section Certificates

variable {tables : Tables} (kept : RowsKept tables) {key : String}

theorem no_reference {refs : List ResourceReference} (other : name.kind ≠ .pool)
    (only : ∀ ref ∈ refs, ref.target.kind = .pool) :
    ¬ ∃ ref ∈ refs, ref.target = name ∧ ref.cascades = false := by
  rintro ⟨ref, member, target, _⟩
  exact other ((kind_of_target target).symm.trans (only ref member))

theorem no_routes (other : name.kind ≠ .pool) :
    (∀ row, ¬ ∃ ref ∈ actionReferences (httpActionOf row),
        ref.target = name ∧ ref.cascades = false) ∧
      ∀ key row, ¬ ∃ ref ∈ passthroughReferences (passthroughRouteOf key row).action,
        ref.target = name ∧ ref.cascades = false :=
  ⟨fun _ => no_reference other fun _ member => (actionReferences_spec member).1,
    fun _ _ => no_reference other fun _ member => (passthroughReferences_spec member).1⟩

include kept

theorem restricted_certificate :
    resources.Restricted (shown tables) (certificateName key) ↔
      certificateReferenced tables key = true := by
  have pools (pool : String) : poolName pool ≠ certificateName key := ne_of_kind (by simp)
  have listeners (listener : String) : listenerName listener ≠ certificateName key :=
    ne_of_kind (by simp)
  obtain ⟨routes, passthrough⟩ := @no_routes (certificateName key) (by simp)
  have bodies (name : String) (row : ListenerRow)
      (stored : tables.listeners.get? name = some row) :
      (∃ ref ∈ bodyReferences (listenerBodyOf row),
        ref.target = certificateName key ∧ ref.cascades = false) ↔
        row.tlsDefaultCert = some key := by
    obtain ⟨listener, rfl⟩ := kept.listeners name row stored
    rw [references_standingRow]
    exact tlsReferences_standingRow.1
  refine (exists_reference).trans ?_
  simp only [backendReference, listenerReference, passthroughListener, bindingReference,
    plainReference, pools, listeners, routes, passthrough, false_and, and_false, exists_false,
    false_or, certificateName_eq, and_true, certificateReferenced, Bool.or_eq_true,
    any_values, decide_eq_true_eq]
  refine or_congr ?_ Iff.rfl
  exact exists_congr fun name => exists_congr fun row => and_congr_right (bodies name row)

theorem restricted_policy :
    resources.Restricted (shown tables) (policyName key) ↔
      policyReferenced tables key = true := by
  have pools (pool : String) : poolName pool ≠ policyName key := ne_of_kind (by simp)
  have listeners (listener : String) : listenerName listener ≠ policyName key :=
    ne_of_kind (by simp)
  have certificates (certificate : String) : certificateName certificate ≠ policyName key :=
    ne_of_kind (by simp)
  obtain ⟨routes, passthrough⟩ := @no_routes (policyName key) (by simp)
  have bodies (name : String) (row : ListenerRow)
      (stored : tables.listeners.get? name = some row) :
      (∃ ref ∈ bodyReferences (listenerBodyOf row),
        ref.target = policyName key ∧ ref.cascades = false) ↔
        row.tlsPolicy = some key := by
    obtain ⟨listener, rfl⟩ := kept.listeners name row stored
    rw [references_standingRow]
    exact tlsReferences_standingRow.2
  refine (exists_reference).trans ?_
  simp only [backendReference, listenerReference, passthroughListener, bindingReference,
    plainReference, pools, listeners, certificates, routes, passthrough, false_and, and_false,
    exists_false, false_or, or_false, policyReferenced, any_values, decide_eq_true_eq]
  exact exists_congr fun name => exists_congr fun row => and_congr_right (bodies name row)

end Certificates

end Store

end Barycenter
