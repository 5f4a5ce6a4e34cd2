import Barycenter.Conf.Render
import Barycenter.Foundation.DelimitedText
import Barycenter.Model.Decode
import Mathlib.Data.Finset.Card

/-!
# The strict priority of validation and of rendering

Validation and rendering plan strict priority from tables of their own: the one
has the hosts of a listener's routes, the other the hosts that the listener
answers to, where a host without routes counts as priority 0.  A component of the
conflict graph is a star, a wildcard and the names under it, so two plans lower
the same hosts exactly when the same stars are contested and have the same names.
-/

namespace Barycenter

namespace Conf

open Config
open Route (HostPattern parseHostPattern patternKey patternsConflict coversOneLabel StrictHost
  planStrictPriority InvertedAround SameComponent invertedPair loweredIdx)
open Validate (Runtime ValidationCapabilities validateModel strictInputs strictHosts strictIssues
  strictPriorityMaxLowered groupsOf inKeyOrder)

/-! ## Stars -/

/-- The wildcard for a suffix, or a name that it covers. -/
def Under (suffix : String) : HostPattern → Prop
  | .exact name => coversOneLabel name.toList suffix.toList = true
  | .wildcard other => other = suffix

/-- A name under the wildcard has a lower priority than the wildcard. -/
def Contested (hosts : List StrictHost) (suffix : String) : Prop :=
  ∃ exact ∈ hosts, ∃ wildcard ∈ hosts, ∃ name, exact.pattern = .exact name ∧
    coversOneLabel name.toList suffix.toList = true ∧ wildcard.pattern = .wildcard suffix ∧
      exact.priority < wildcard.priority

/-- Two tables contest the same wildcards, with the same names under them. -/
def SameContests (left right : List StrictHost) : Prop :=
  ∀ suffix, (Contested left suffix ↔ Contested right suffix) ∧
    (Contested left suffix → ∀ pattern, Under suffix pattern →
      ((∃ host ∈ left, host.pattern = pattern) ↔ ∃ host ∈ right, host.pattern = pattern))

theorem coversOneLabel_unique {host left right : List Char}
    (leftCovers : coversOneLabel host left = true)
    (rightCovers : coversOneLabel host right = true) : left = right := by
  have read : ∀ {suffix : List Char}, coversOneLabel host suffix = true →
      ∃ label, '.' ∉ label ∧ host = label ++ '.' :: suffix := by
    intro suffix covers
    simp only [coversOneLabel, Bool.and_eq_true, List.isSuffixOf_iff_suffix, Bool.not_eq_true',
      List.contains_eq_mem, decide_eq_false_iff_not] at covers
    obtain ⟨⟨label, whole⟩, undotted⟩ := covers
    rw [Route.take_label whole.symm] at undotted
    exact ⟨label, undotted, whole.symm⟩
  obtain ⟨leftLabel, leftUndotted, leftWhole⟩ := read leftCovers
  obtain ⟨rightLabel, rightUndotted, rightWhole⟩ := read rightCovers
  exact (DelimitedText.split_at_separator leftUndotted rightUndotted
    (leftWhole.symm.trans rightWhole)).2

variable {suffix : String}

theorem Under.of_conflict {pattern other : HostPattern} (under : Under suffix pattern)
    (conflict : patternsConflict pattern other = true) : Under suffix other := by
  cases pattern with
  | exact name =>
      cases other with
      | exact same =>
          simp only [patternsConflict, decide_eq_true_eq] at conflict
          rwa [← conflict]
      | wildcard wide =>
          exact String.toList_inj.mp (coversOneLabel_unique conflict under)
  | wildcard wide =>
      cases under
      cases other with
      | exact name => exact conflict
      | wildcard same =>
          simp only [patternsConflict, decide_eq_true_eq] at conflict
          exact conflict.symm

theorem Under.conflict {pattern : HostPattern} (under : Under suffix pattern) :
    patternsConflict (.wildcard suffix) pattern = true := by
  cases pattern with
  | exact name => exact under
  | wildcard other => simpa [patternsConflict] using under.symm

theorem invertedPair_iff {left right : StrictHost} :
    invertedPair left right = true ↔
      ∃ name suffix, left.pattern = .exact name ∧ right.pattern = .wildcard suffix ∧
        left.priority < right.priority := by
  obtain ⟨_, leftPattern, _⟩ := left
  obtain ⟨_, rightPattern, _⟩ := right
  cases leftPattern <;> cases rightPattern <;>
    simp [invertedPair, Route.rankOf, Route.classOf, Route.classRank]

section

variable {hosts : List StrictHost}

theorem conflict_of_mem_adj {left right : Fin hosts.length}
    (linked : right ∈ Route.adj hosts left) :
    patternsConflict (hosts.get left).pattern (hosts.get right).pattern = true := by
  rw [Route.mem_adj, Route.adjacent] at linked
  split at linked
  · exact linked
  · split at linked
    · rw [Route.patternsConflict_comm]
      exact linked
    · cases linked

theorem Under.of_sameComponent {host other : Fin hosts.length}
    (under : Under suffix (hosts.get host).pattern) (same : SameComponent hosts host other) :
    Under suffix (hosts.get other).pattern := by
  induction same with
  | refl => exact under
  | tail _ linked induction => exact induction.of_conflict (conflict_of_mem_adj linked)

theorem sameComponent_of_under {wildcard host : Fin hosts.length}
    (wide : (hosts.get wildcard).pattern = .wildcard suffix)
    (under : Under suffix (hosts.get host).pattern) : SameComponent hosts wildcard host := by
  by_cases same : wildcard = host
  · rw [same]
  · refine Relation.ReflTransGen.single (Route.mem_adj.mpr ?_)
    refine Route.adjacent_of_conflict same ?_
    rw [wide]
    exact under.conflict

theorem invertedAround_iff {host : Fin hosts.length} :
    InvertedAround hosts host ↔
      ∃ suffix, Under suffix (hosts.get host).pattern ∧ Contested hosts suffix := by
  constructor
  · rintro ⟨left, right, toLeft, toRight, pair⟩
    obtain ⟨name, suffix, named, wide, lower⟩ := invertedPair_iff.mp pair
    have back := Components.connected_symm Route.adj_symm toRight
    have centre : Under suffix (hosts.get right).pattern := by
      rw [wide]
      rfl
    have covered := centre.of_sameComponent (back.trans toLeft)
    rw [named] at covered
    exact ⟨suffix, centre.of_sameComponent back, _, List.get_mem hosts left, _,
      List.get_mem hosts right, name, named, covered, wide, lower⟩
  · rintro ⟨suffix, under, exact, exactIn, wildcard, wildcardIn, name, named, covered, wide, lower⟩
    obtain ⟨left, rfl⟩ := List.mem_iff_get.mp exactIn
    obtain ⟨right, rfl⟩ := List.mem_iff_get.mp wildcardIn
    have toHost := sameComponent_of_under wide under
    have toLeft := @sameComponent_of_under _ _ _ left wide (by rw [named]; exact covered)
    have back := Components.connected_symm Route.adj_symm toHost
    exact ⟨left, right, back.trans toLeft, back,
      invertedPair_iff.mpr ⟨name, suffix, named, wide, lower⟩⟩

theorem mem_lowered_iff {key : String} :
    key ∈ (planStrictPriority hosts).lowered ↔
      ∃ host ∈ hosts, patternKey host.pattern = key ∧
        ∃ suffix, Under suffix host.pattern ∧ Contested hosts suffix := by
  simp only [planStrictPriority, List.mem_eraseDups, List.mem_map, Route.mem_loweredIdx,
    invertedAround_iff]
  constructor
  · rintro ⟨host, contested, same⟩
    exact ⟨_, List.get_mem hosts host, same, contested⟩
  · rintro ⟨host, member, same, contested⟩
    obtain ⟨index, rfl⟩ := List.mem_iff_get.mp member
    exact ⟨index, contested, same⟩

end

variable {left right : List StrictHost}

theorem lowered_of_contests (agree : SameContests left right) {key : String}
    (lowered : key ∈ (planStrictPriority left).lowered) :
    key ∈ (planStrictPriority right).lowered := by
  obtain ⟨host, member, named, suffix, under, contested⟩ := mem_lowered_iff.mp lowered
  obtain ⟨same, names⟩ := agree suffix
  obtain ⟨other, present, pattern⟩ :=
    (names contested host.pattern under).mp ⟨host, member, rfl⟩
  refine mem_lowered_iff.mpr ⟨other, present, ?_, suffix, ?_, same.mp contested⟩
  · rw [pattern, named]
  · rw [pattern]
    exact under

theorem SameContests.symm (agree : SameContests left right) : SameContests right left := by
  intro suffix
  obtain ⟨same, names⟩ := agree suffix
  exact ⟨same.symm, fun contested pattern under =>
    (names (same.mpr contested) pattern under).symm⟩

theorem contested_of_lowered (included : ∀ key ∈ (planStrictPriority left).lowered,
      key ∈ (planStrictPriority right).lowered) (contested : Contested left suffix) :
    Contested right suffix ∧ ∀ host ∈ left, Under suffix host.pattern →
      ∃ other ∈ right, other.pattern = host.pattern := by
  have reads : ∀ host ∈ left, Under suffix host.pattern →
      ∃ other ∈ right, other.pattern = host.pattern ∧
        ∃ wide, Under wide other.pattern ∧ Contested right wide := by
    intro host member under
    have lowered := included _ (mem_lowered_iff.mpr ⟨host, member, rfl, suffix, under, contested⟩)
    obtain ⟨other, present, same, star⟩ := mem_lowered_iff.mp lowered
    exact ⟨other, present, Route.patternKey_injective same, star⟩
  constructor
  · obtain ⟨_, _, wildcard, member, _, _, _, wide, _⟩ := contested
    obtain ⟨other, _, same, star, under, there⟩ := reads wildcard member (by rw [wide]; rfl)
    rw [same, wide] at under
    cases under
    exact there
  · intro host member under
    obtain ⟨other, present, same, _⟩ := reads host member under
    exact ⟨other, present, same⟩

theorem lowered_same_iff :
    (∀ key, key ∈ (planStrictPriority left).lowered ↔ key ∈ (planStrictPriority right).lowered) ↔
      SameContests left right := by
  constructor
  · intro same suffix
    have onward := fun key (lowered : key ∈ (planStrictPriority left).lowered) =>
      (same key).mp lowered
    have back := fun key (lowered : key ∈ (planStrictPriority right).lowered) =>
      (same key).mpr lowered
    refine ⟨⟨fun contested => (contested_of_lowered onward contested).1,
      fun contested => (contested_of_lowered back contested).1⟩, fun contested pattern under => ?_⟩
    obtain ⟨there, toRight⟩ := contested_of_lowered onward contested
    obtain ⟨_, toLeft⟩ := contested_of_lowered back there
    constructor
    · rintro ⟨host, member, rfl⟩
      exact toRight host member under
    · rintro ⟨host, member, rfl⟩
      exact toLeft host member under
  · intro agree key
    exact ⟨lowered_of_contests agree, lowered_of_contests agree.symm⟩

/-! ## The two tables -/

section

variable (runtime : Runtime) (model : Model)

def highest (priorities : List Nat) : Int := priorities.foldl max 0

def validatedHosts (key : String) : List StrictHost :=
  strictHosts runtime (((strictInputs model).filter fun input => input.1 = key).map Prod.snd)

def renderedHosts (listener : Listener) (routes : List HttpRoute) : List StrictHost :=
  (hostList listener routes).filterMap fun host =>
    match parseHostPattern runtime.hosts host with
    | .ok pattern =>
        some ⟨host, pattern, highest ((hostRoutes routes host).map HttpRoute.priority)⟩
    | .error _ => none

def priorityOf (routes : List HttpRoute) (host : String) : Int :=
  highest ((routes.filter fun route => host ∈ route.hosts).map HttpRoute.priority)

def answeredHosts (listener : Listener) (routes : List HttpRoute) : List String :=
  listener.hosts.getD (routes.flatMap HttpRoute.hosts)

def isStrict (listener : Listener) : Prop :=
  listener.http.bind HttpProfile.strictPriority = some true

end

theorem foldl_max_le_iff {numbers : List Int} {start bound : Int} :
    numbers.foldl max start ≤ bound ↔ start ≤ bound ∧ ∀ number ∈ numbers, number ≤ bound := by
  induction numbers generalizing start with
  | nil => simp
  | cons first rest induction =>
      rw [List.foldl_cons, induction, List.forall_mem_cons, max_le_iff, and_assoc]

theorem highest_le_iff {priorities : List Nat} {bound : Int} :
    highest priorities ≤ bound ↔ 0 ≤ bound ∧ ∀ priority ∈ priorities, (priority : Int) ≤ bound := by
  rw [highest, foldl_max_le_iff]
  refine and_congr_right fun _ => ?_
  constructor
  · exact fun below priority member => below priority
      (List.mem_flatMap.mpr ⟨priority, member, List.mem_singleton_self _⟩)
  · intro below number member
    obtain ⟨priority, listed, rfl⟩ : ∃ priority ∈ priorities, number = (priority : Int) := by
      simpa using member
    exact below priority listed

theorem highest_congr {left right : List Nat}
    (same : ∀ priority, priority ∈ left ↔ priority ∈ right) : highest left = highest right := by
  have bounds := fun priorities : List Nat => highest_le_iff.mp (le_refl (highest priorities))
  refine le_antisymm ?_ ?_
  · exact highest_le_iff.mpr ⟨(bounds right).1, fun priority member =>
      (bounds right).2 priority ((same priority).mp member)⟩
  · exact highest_le_iff.mpr ⟨(bounds left).1, fun priority member =>
      (bounds left).2 priority ((same priority).mpr member)⟩

section

variable {runtime : Runtime} {model : Model} {listener : Listener} {routes : List HttpRoute}
  {host : StrictHost} {key : String}

theorem strictPlan_eq (strict : isStrict listener) :
    strictPlan runtime listener routes = planStrictPriority (renderedHosts runtime listener routes) := by
  unfold isStrict at strict
  rw [strictPlan, if_pos strict]
  rfl

theorem mem_hostList {text : String} :
    text ∈ hostList listener routes ↔ text ∈ answeredHosts listener routes := by
  unfold hostList answeredHosts inKeyOrder
  rw [List.mem_insertionSort]
  cases listener.hosts <;> simp

theorem hostRoutes_priority (routes : List HttpRoute) (text : String) :
    highest ((hostRoutes routes text).map HttpRoute.priority) = priorityOf routes text := by
  refine highest_congr fun priority => ?_
  simp only [hostRoutes, inKeyOrder, List.mem_map, List.mem_flatMap, List.mem_insertionSort,
    List.mem_filter, decide_eq_true_eq]
  constructor
  · rintro ⟨_, ⟨route, member, _, ⟨listed, rfl⟩, rfl⟩, rfl⟩
    exact ⟨route, ⟨member, listed⟩, rfl⟩
  · rintro ⟨route, ⟨member, listed⟩, rfl⟩
    exact ⟨route, ⟨route, member, text, ⟨listed, rfl⟩, rfl⟩, rfl⟩

theorem mem_renderedHosts :
    host ∈ renderedHosts runtime listener routes ↔
      host.key ∈ answeredHosts listener routes ∧
        parseHostPattern runtime.hosts host.key = .ok host.pattern ∧
          host.priority = priorityOf routes host.key := by
  simp only [renderedHosts, List.mem_filterMap, mem_hostList, hostRoutes_priority]
  constructor
  · rintro ⟨text, member, made⟩
    split at made
    · rename_i pattern parsed
      cases made
      exact ⟨member, parsed, rfl⟩
    · cases made
  · rintro ⟨member, parsed, priority⟩
    refine ⟨host.key, member, ?_⟩
    rw [parsed, ← priority]

theorem mem_strictInputs {text : String} {priority : Nat} :
    (key, text, priority) ∈ strictInputs model ↔
      ((Validate.listenerOf model key).bind Listener.http).bind HttpProfile.strictPriority =
          some true ∧
        ∃ route ∈ routesOf model key, text ∈ route.hosts ∧ route.priority = priority := by
  simp only [strictInputs, routesOf, List.mem_flatMap, List.mem_filter, decide_eq_true_eq]
  constructor
  · rintro ⟨route, member, input⟩
    split at input
    · rename_i strict
      obtain ⟨_, listed, same⟩ := List.mem_map.mp input
      cases same
      exact ⟨strict, route, ⟨member, rfl⟩, listed, rfl⟩
    · cases input
  · rintro ⟨strict, route, ⟨member, rfl⟩, listed, rfl⟩
    refine ⟨route, member, ?_⟩
    rw [if_pos strict]
    exact List.mem_map.mpr ⟨text, listed, rfl⟩

theorem mem_strictHosts {priorities : List (String × Nat)} :
    host ∈ strictHosts runtime priorities ↔
      (∃ number, (host.key, number) ∈ priorities) ∧
        parseHostPattern runtime.hosts host.key = .ok host.pattern ∧
          host.priority =
            highest ((priorities.filter fun entry => entry.1 = host.key).map Prod.snd) := by
  simp only [strictHosts, groupsOf, List.mem_filterMap, List.mem_map, List.mem_eraseDups]
  constructor
  · rintro ⟨_, ⟨text, ⟨⟨_, number⟩, member, rfl⟩, rfl⟩, made⟩
    dsimp only at made
    split at made
    · rename_i pattern parsed
      cases made
      exact ⟨⟨number, member⟩, parsed, rfl⟩
    · cases made
  · rintro ⟨⟨number, member⟩, parsed, priority⟩
    refine ⟨_, ⟨host.key, ⟨_, member, rfl⟩, rfl⟩, ?_⟩
    obtain ⟨text, pattern, value⟩ := host
    dsimp only at parsed priority ⊢
    rw [parsed, priority]
    rfl

/-- Validation sees the hosts of the routes, when the listener is the one it looks up. -/
theorem mem_validatedHosts (known : Validate.listenerOf model key = some listener)
    (strict : isStrict listener) :
    host ∈ validatedHosts runtime model key ↔
      (∃ route ∈ routesOf model key, host.key ∈ route.hosts) ∧
        parseHostPattern runtime.hosts host.key = .ok host.pattern ∧
          host.priority = priorityOf (routesOf model key) host.key := by
  have isOn : ((Validate.listenerOf model key).bind Listener.http).bind
      HttpProfile.strictPriority = some true := by
    rw [known]
    exact strict
  have inputs : ∀ entry : String × Nat,
      entry ∈ ((strictInputs model).filter fun input => input.1 = key).map Prod.snd ↔
        ∃ route ∈ routesOf model key, entry.1 ∈ route.hosts ∧ route.priority = entry.2 := by
    rintro ⟨text, number⟩
    simp only [List.mem_map, List.mem_filter, decide_eq_true_eq]
    constructor
    · rintro ⟨⟨_, _, _⟩, ⟨member, rfl⟩, same⟩
      cases same
      exact (mem_strictInputs.mp member).2
    · intro listed
      exact ⟨(key, text, number), ⟨mem_strictInputs.mpr ⟨isOn, listed⟩, rfl⟩, rfl⟩
  have priorities : ∀ text, highest (((((strictInputs model).filter fun input =>
        input.1 = key).map Prod.snd).filter fun entry => entry.1 = text).map Prod.snd) =
      priorityOf (routesOf model key) text := by
    intro text
    refine highest_congr fun number => ?_
    constructor
    · intro member
      obtain ⟨⟨other, _⟩, kept, rfl⟩ := List.mem_map.mp member
      obtain ⟨there, same⟩ := List.mem_filter.mp kept
      obtain ⟨route, known, listed, priority⟩ := (inputs _).mp there
      cases of_decide_eq_true same
      exact List.mem_map.mpr ⟨route, List.mem_filter.mpr ⟨known, decide_eq_true listed⟩, priority⟩
    · intro member
      obtain ⟨route, kept, same⟩ := List.mem_map.mp member
      obtain ⟨known, listed⟩ := List.mem_filter.mp kept
      exact List.mem_map.mpr ⟨(text, number), List.mem_filter.mpr
        ⟨(inputs _).mpr ⟨route, known, of_decide_eq_true listed, same⟩, decide_eq_true rfl⟩, rfl⟩
  rw [validatedHosts, mem_strictHosts, priorities]
  refine and_congr_left fun _ => ?_
  constructor
  · rintro ⟨number, member⟩
    obtain ⟨route, known, listed, _⟩ := (inputs _).mp member
    exact ⟨route, known, listed⟩
  · rintro ⟨route, known, listed⟩
    exact ⟨route.priority, (inputs _).mpr ⟨route, known, listed, rfl⟩⟩

/-! ## What rendering does to the tables -/

theorem SameContests.congr_right {left right other : List StrictHost}
    (same : ∀ host, host ∈ right ↔ host ∈ other) :
    SameContests left right ↔ SameContests left other := by
  unfold SameContests Contested
  simp only [same]

theorem SameContests.of_mem (same : ∀ host, host ∈ left ↔ host ∈ right) : SameContests left right :=
  (SameContests.congr_right same).mp fun _ => ⟨Iff.rfl, fun _ _ _ => Iff.rfl⟩

theorem expandListener_http (sets : String → Option (List String)) (listener : Listener) :
    (expandListener sets listener).http = listener.http := by
  unfold expandListener
  split
  · rfl
  · cases body : listener.body <;> simp [Listener.http, expandBody, body]

theorem expandListener_hosts (sets : String → Option (List String)) (listener : Listener) :
    (expandListener sets listener).hosts = listener.hosts := by
  unfold expandListener
  split
  · rfl
  · exact expandBody_hosts

theorem expandRoute_priority (sets : String → Option (List String)) (route : HttpRoute) :
    (expandRoute sets route).priority = route.priority := by
  unfold expandRoute
  split <;> rfl

theorem mem_routesOf_expanded {route : HttpRoute} :
    route ∈ routesOf (expandAddressSets model) key ↔
      ∃ written ∈ routesOf model key, expandRoute (rangesOf model) written = route := by
  simp only [routesOf, expandAddressSets, List.mem_filter, List.mem_map, decide_eq_true_eq]
  constructor
  · rintro ⟨⟨written, member, rfl⟩, on⟩
    exact ⟨written, ⟨member, by simpa using on⟩, rfl⟩
  · rintro ⟨written, ⟨member, on⟩, rfl⟩
    exact ⟨⟨written, member, rfl⟩, by simpa using on⟩

theorem mem_renderedHosts_expanded :
    host ∈ renderedHosts runtime (expandListener (rangesOf model) listener)
        (routesOf (expandAddressSets model) key) ↔
      host ∈ renderedHosts runtime listener (routesOf model key) := by
  have priorities : ∀ text, priorityOf (routesOf (expandAddressSets model) key) text =
      priorityOf (routesOf model key) text := by
    intro text
    refine highest_congr fun priority => ?_
    simp only [List.mem_map, List.mem_filter, decide_eq_true_eq, mem_routesOf_expanded]
    constructor
    · rintro ⟨_, ⟨⟨written, member, rfl⟩, listed⟩, rfl⟩
      exact ⟨written, ⟨member, by simpa using listed⟩, (expandRoute_priority _ written).symm⟩
    · rintro ⟨written, ⟨member, listed⟩, rfl⟩
      exact ⟨_, ⟨⟨written, member, rfl⟩, by simpa using listed⟩, expandRoute_priority _ written⟩
  have answered : ∀ text, text ∈ answeredHosts (expandListener (rangesOf model) listener)
        (routesOf (expandAddressSets model) key) ↔
      text ∈ answeredHosts listener (routesOf model key) := by
    intro text
    unfold answeredHosts
    rw [expandListener_hosts]
    cases listener.hosts with
    | some hosts => rfl
    | none =>
        simp only [Option.getD_none, List.mem_flatMap, mem_routesOf_expanded]
        constructor
        · rintro ⟨_, ⟨written, member, rfl⟩, listed⟩
          exact ⟨written, member, by simpa using listed⟩
        · rintro ⟨written, member, listed⟩
          exact ⟨_, ⟨written, member, rfl⟩, by simpa using listed⟩
  rw [mem_renderedHosts, mem_renderedHosts, priorities, answered]

end

/-! ## Agreement -/

section

variable (runtime : Runtime) (model : Model) (listener : Listener)

/-- The plan that is rendered for a listener of the model. -/
def renderedPlan : Route.StrictPriorityPlan :=
  strictPlan runtime (expandListener (rangesOf model) listener)
    (routesOf (expandAddressSets model) listener.key)

def validatedPlan : Route.StrictPriorityPlan :=
  planStrictPriority (validatedHosts runtime model listener.key)

/-- What is lowered was planned in validation, so it is within the cap, and every
inversion that is resolved was seen. -/
structure StrictAgreement : Prop where
  same : ∀ key, key ∈ (renderedPlan runtime model listener).lowered ↔
    key ∈ (validatedPlan runtime model listener).lowered
  capped : ∀ context : ServerContext,
    context.listener = expandListener (rangesOf model) listener →
    (((serverOrder runtime (expandAddressSets model) context
        (routesOf (expandAddressSets model) listener.key)).filter HostServer.lowered).map
      fun server => patternKey server.pattern).toFinset.card ≤ strictPriorityMaxLowered
  seen : ∀ exact ∈ renderedHosts runtime listener (routesOf model listener.key),
    ∀ wildcard ∈ renderedHosts runtime listener (routesOf model listener.key),
      invertedPair exact wildcard = true →
      patternsConflict exact.pattern wildcard.pattern = true →
      patternKey exact.pattern ∈ (validatedPlan runtime model listener).lowered ∧
        patternKey wildcard.pattern ∈ (validatedPlan runtime model listener).lowered

/-- The listener is the one that its key finds, its routes spell the hosts as the
listener does, and no two of its hosts are one pattern. -/
structure SpelledAlike : Prop where
  known : Validate.listenerOf model listener.key = some listener
  listed : ∀ hosts ∈ listener.hosts, ∀ route ∈ routesOf model listener.key,
    ∀ host ∈ route.hosts, host ∈ hosts
  distinct : ∀ hosts ∈ listener.hosts, ∀ host ∈ hosts, ∀ other ∈ hosts, ∀ pattern,
    parseHostPattern runtime.hosts host = .ok pattern →
    parseHostPattern runtime.hosts other = .ok pattern → host = other

/-- A name of the listener without routes is not under a wildcard whose routes have
a priority. -/
def NoIdleNameBelow : Prop :=
  ∀ hosts ∈ listener.hosts, ∀ host ∈ hosts,
    (∀ route ∈ routesOf model listener.key, host ∉ route.hosts) →
    ∀ name, parseHostPattern runtime.hosts host = .ok (.exact name) →
    ∀ route ∈ routesOf model listener.key, ∀ other ∈ route.hosts, ∀ suffix,
      parseHostPattern runtime.hosts other = .ok (.wildcard suffix) →
      coversOneLabel name.toList suffix.toList = true → route.priority = 0

end

section

variable {runtime : Runtime} {caps : ValidationCapabilities} {model : Model} {listener : Listener}

theorem strictIssues_nil (valid : validateModel runtime caps model = []) :
    strictIssues runtime model = [] := by
  simp only [validateModel, List.append_eq_nil_iff] at valid
  exact valid.1.1.1.2

theorem validatedPlan_capped (valid : validateModel runtime caps model = []) :
    (validatedPlan runtime model listener).lowered.length ≤ strictPriorityMaxLowered := by
  have quiet := strictIssues_nil valid
  simp only [strictIssues, List.flatMap_eq_nil_iff] at quiet
  by_cases grouped : listener.key ∈ (strictInputs model).map Prod.fst
  · have here := quiet (listener.key, ((strictInputs model).filter fun input =>
        input.1 = listener.key).map Prod.snd)
      (List.mem_map.mpr ⟨listener.key, List.mem_eraseDups.mpr grouped, rfl⟩)
    dsimp only at here
    split at here
    · cases here
    · rename_i within
      exact Nat.le_of_not_lt within
  · have nothing : ((strictInputs model).filter fun input => input.1 = listener.key) = [] := by
      refine List.filter_eq_nil_iff.mpr fun input member same => grouped ?_
      exact List.mem_map.mpr ⟨input, member, of_decide_eq_true same⟩
    have empty : validatedHosts runtime model listener.key = [] := by
      rw [validatedHosts, nothing]
      rfl
    have unlowered : (validatedPlan runtime model listener).lowered = [] := by
      refine List.eq_nil_iff_forall_not_mem.mpr fun key member => ?_
      obtain ⟨_, among, _⟩ := mem_lowered_iff.mp member
      rw [empty] at among
      cases among
    rw [unlowered]
    exact Nat.zero_le _

variable {routes : List HttpRoute}

theorem lowered_server {context : ServerContext} {server : HostServer}
    (member : server ∈ serverOrder runtime model context routes) (lowered : server.lowered = true) :
    patternKey server.pattern ∈ (strictPlan runtime context.listener routes).lowered := by
  have among : server ∈ hostServers runtime model context routes := by
    rcases List.mem_append.mp member with plain | late
    · exact (List.mem_filter.mp plain).1
    · exact (List.mem_filter.mp ((List.mem_insertionSort _).mp late)).1
  simp only [hostServers, List.mem_filterMap] at among
  obtain ⟨host, _, made⟩ := among
  split at made
  · cases made
  · split at made
    · cases made
    · cases made
      exact of_decide_eq_true lowered

theorem renderedPlan_eq (strict : isStrict listener) :
    renderedPlan runtime model listener =
      planStrictPriority (renderedHosts runtime (expandListener (rangesOf model) listener)
        (routesOf (expandAddressSets model) listener.key)) := by
  refine strictPlan_eq ?_
  unfold isStrict
  rw [expandListener_http]
  exact strict

theorem strictAgreement_iff (valid : validateModel runtime caps model = [])
    (strict : isStrict listener) :
    StrictAgreement runtime model listener ↔
      SameContests (validatedHosts runtime model listener.key)
        (renderedHosts runtime listener (routesOf model listener.key)) := by
  have tables : (∀ key, key ∈ (validatedPlan runtime model listener).lowered ↔
        key ∈ (renderedPlan runtime model listener).lowered) ↔
      SameContests (validatedHosts runtime model listener.key)
        (renderedHosts runtime listener (routesOf model listener.key)) := by
    rw [renderedPlan_eq strict, validatedPlan, lowered_same_iff]
    exact SameContests.congr_right fun host => mem_renderedHosts_expanded
  constructor
  · intro agreement
    exact tables.mp fun key => (agreement.same key).symm
  · intro contests
    have same := tables.mpr contests
    refine ⟨fun key => (same key).symm, fun context shown => ?_, ?_⟩
    · have included : (((serverOrder runtime (expandAddressSets model) context
            (routesOf (expandAddressSets model) listener.key)).filter HostServer.lowered).map
          fun server => patternKey server.pattern).toFinset ⊆
          (validatedPlan runtime model listener).lowered.toFinset := by
        intro key member
        obtain ⟨server, kept, rfl⟩ := List.mem_map.mp (List.mem_toFinset.mp member)
        obtain ⟨ordered, lowered⟩ := List.mem_filter.mp kept
        have planned := lowered_server ordered lowered
        rw [shown] at planned
        exact List.mem_toFinset.mpr ((same _).mpr planned)
      exact (Finset.card_le_card included).trans
        ((List.toFinset_card_le _).trans (validatedPlan_capped valid))
    · intro exact exactIn wildcard wildcardIn inverted conflict
      obtain ⟨name, suffix, named, wide, lower⟩ := invertedPair_iff.mp inverted
      have covered : coversOneLabel name.toList suffix.toList = true := by
        rw [named, wide] at conflict
        exact conflict
      have contested : Contested (renderedHosts runtime listener (routesOf model listener.key))
          suffix := ⟨exact, exactIn, wildcard, wildcardIn, name, named, covered, wide, lower⟩
      have planned := fun host (member : host ∈ renderedHosts runtime listener
          (routesOf model listener.key)) (under : Under suffix host.pattern) =>
        lowered_of_contests contests.symm
          (mem_lowered_iff.mpr ⟨host, member, rfl, suffix, under, contested⟩)
      refine ⟨planned exact exactIn ?_, planned wildcard wildcardIn ?_⟩
      · rw [named]
        exact covered
      · rw [wide]
        rfl

/-! ## Hosts that are spelled alike -/

theorem SpelledAlike.mem_validatedHosts (alike : SpelledAlike runtime model listener)
    (strict : isStrict listener) (host : StrictHost) :
    host ∈ validatedHosts runtime model listener.key ↔
      host ∈ renderedHosts runtime listener (routesOf model listener.key) ∧
        ∃ route ∈ routesOf model listener.key, host.key ∈ route.hosts := by
  rw [Conf.mem_validatedHosts alike.known strict, mem_renderedHosts]
  constructor
  · rintro ⟨⟨route, member, listed⟩, parsed, priority⟩
    refine ⟨⟨?_, parsed, priority⟩, route, member, listed⟩
    unfold answeredHosts
    cases hosts : listener.hosts with
    | none => exact List.mem_flatMap.mpr ⟨route, member, listed⟩
    | some hosts' => exact alike.listed _ hosts route member _ listed
  · rintro ⟨⟨_, parsed, priority⟩, routed⟩
    exact ⟨routed, parsed, priority⟩

variable {text : String}

theorem priorityOf_idle (idle : ∀ route ∈ routes, text ∉ route.hosts) :
    priorityOf routes text = 0 := by
  have nothing : (routes.filter fun route => text ∈ route.hosts) = [] :=
    List.filter_eq_nil_iff.mpr fun route member => by simpa using idle route member
  rw [priorityOf, nothing]
  rfl

theorem exists_of_priorityOf_pos (positive : 0 < priorityOf routes text) :
    ∃ route ∈ routes, text ∈ route.hosts ∧ route.priority ≠ 0 := by
  by_contra none
  push Not at none
  refine absurd (highest_le_iff.mpr ⟨le_refl _, fun priority member => ?_⟩) (not_le.mpr positive)
  obtain ⟨route, kept, rfl⟩ := List.mem_map.mp member
  obtain ⟨known, listed⟩ := List.mem_filter.mp kept
  rw [none route known (of_decide_eq_true listed)]
  rfl

theorem le_priorityOf {route : HttpRoute} (known : route ∈ routes) (listed : text ∈ route.hosts) :
    (route.priority : Int) ≤ priorityOf routes text :=
  (highest_le_iff.mp (le_refl _)).2 _
    (List.mem_map.mpr ⟨route, List.mem_filter.mpr ⟨known, decide_eq_true listed⟩, rfl⟩)

/-- Where the hosts are spelled alike, only names without routes set the tables apart. -/
theorem SpelledAlike.sameContests_iff (alike : SpelledAlike runtime model listener)
    (strict : isStrict listener) :
    SameContests (validatedHosts runtime model listener.key)
        (renderedHosts runtime listener (routesOf model listener.key)) ↔
      NoIdleNameBelow runtime model listener := by
  have inside := alike.mem_validatedHosts strict
  constructor
  · intro contests hosts known text among idle name parsed route member other listed suffix wide
      covered
    by_contra positive
    have lowest : (⟨text, .exact name, 0⟩ : StrictHost) ∈
        renderedHosts runtime listener (routesOf model listener.key) := by
      refine mem_renderedHosts.mpr ⟨?_, parsed, (priorityOf_idle idle).symm⟩
      rw [answeredHosts, known]
      exact among
    have highestThere : (⟨other, .wildcard suffix,
          priorityOf (routesOf model listener.key) other⟩ : StrictHost) ∈
        renderedHosts runtime listener (routesOf model listener.key) := by
      refine mem_renderedHosts.mpr ⟨?_, wide, rfl⟩
      rw [answeredHosts, known]
      exact alike.listed hosts known route member other listed
    have above := le_priorityOf member listed
    have contested : Contested (renderedHosts runtime listener (routesOf model listener.key))
        suffix := by
      refine ⟨_, lowest, _, highestThere, name, rfl, covered, rfl, ?_⟩
      dsimp only
      omega
    obtain ⟨same, names⟩ := contests suffix
    obtain ⟨seen, present, pattern⟩ :=
      (names (same.mpr contested) (.exact name) covered).mpr ⟨_, lowest, rfl⟩
    obtain ⟨shown, routed, has, there⟩ := (inside seen).mp present
    have spelled := (mem_renderedHosts.mp shown).2.1
    rw [pattern] at spelled
    have twin : text = seen.key :=
      alike.distinct hosts known text among seen.key
        (alike.listed hosts known routed has seen.key there) _ parsed spelled
    rw [← twin] at there
    exact idle routed has there
  · intro quiet
    cases known : listener.hosts with
    | none =>
        refine SameContests.of_mem fun host => (inside host).trans (and_iff_left_of_imp ?_)
        intro shown
        have answered := (mem_renderedHosts.mp shown).1
        rw [answeredHosts, known] at answered
        obtain ⟨route, member, listed⟩ := List.mem_flatMap.mp answered
        exact ⟨route, member, listed⟩
    | some hosts =>
        -- Under a wildcard with a priority every name has routes.
        have routed : ∀ wildcard ∈ renderedHosts runtime listener (routesOf model listener.key),
            ∀ suffix, wildcard.pattern = .wildcard suffix → 0 < wildcard.priority →
            ∀ host ∈ renderedHosts runtime listener (routesOf model listener.key), ∀ name,
              host.pattern = .exact name → coversOneLabel name.toList suffix.toList = true →
              host ∈ validatedHosts runtime model listener.key := by
          intro wildcard wildcardIn suffix wide positive host hostIn name named covered
          obtain ⟨_, wideParsed, priority⟩ := mem_renderedHosts.mp wildcardIn
          obtain ⟨answered, parsed, _⟩ := mem_renderedHosts.mp hostIn
          rw [wide] at wideParsed
          rw [named] at parsed
          rw [answeredHosts, known] at answered
          rw [priority] at positive
          obtain ⟨route, member, listed, nonzero⟩ := exists_of_priorityOf_pos positive
          refine (inside host).mpr ⟨hostIn, ?_⟩
          by_contra without
          push Not at without
          exact nonzero (quiet hosts known host.key answered without name parsed route member
            wildcard.key listed suffix wideParsed covered)
        have seen : ∀ wildcard ∈ renderedHosts runtime listener (routesOf model listener.key),
            0 < wildcard.priority → wildcard ∈ validatedHosts runtime model listener.key := by
          intro wildcard wildcardIn positive
          obtain ⟨_, _, priority⟩ := mem_renderedHosts.mp wildcardIn
          rw [priority] at positive
          obtain ⟨route, member, listed, _⟩ := exists_of_priorityOf_pos positive
          exact (inside wildcard).mpr ⟨wildcardIn, route, member, listed⟩
        have atLeast : ∀ host ∈ renderedHosts runtime listener (routesOf model listener.key),
            0 ≤ host.priority := by
          intro host hostIn
          rw [(mem_renderedHosts.mp hostIn).2.2]
          exact (highest_le_iff.mp (le_refl _)).1
        have back : ∀ suffix, Contested (renderedHosts runtime listener
              (routesOf model listener.key)) suffix →
            Contested (validatedHosts runtime model listener.key) suffix := by
          rintro suffix ⟨exact, exactIn, wildcard, wildcardIn, name, named, covered, wide, lower⟩
          have positive : 0 < wildcard.priority := lt_of_le_of_lt (atLeast exact exactIn) lower
          exact ⟨exact, routed wildcard wildcardIn suffix wide positive exact exactIn name named
            covered, wildcard, seen wildcard wildcardIn positive, name, named, covered, wide, lower⟩
        intro suffix
        refine ⟨⟨?_, back suffix⟩, ?_⟩
        · rintro ⟨exact, exactIn, wildcard, wildcardIn, rest⟩
          exact ⟨exact, ((inside _).mp exactIn).1, wildcard, ((inside _).mp wildcardIn).1, rest⟩
        · rintro ⟨exact, exactIn, wildcard, wildcardIn, _, _, _, wide, lower⟩ pattern under
          have shown := ((inside _).mp wildcardIn).1
          have positive : 0 < wildcard.priority :=
            lt_of_le_of_lt (atLeast exact ((inside _).mp exactIn).1) lower
          constructor
          · rintro ⟨host, hostIn, same⟩
            exact ⟨host, ((inside _).mp hostIn).1, same⟩
          · rintro ⟨host, hostIn, same⟩
            cases pattern with
            | exact name =>
                exact ⟨host, routed wildcard shown suffix wide positive host hostIn name same under,
                  same⟩
            | wildcard other =>
                cases under
                exact ⟨wildcard, wildcardIn, wide⟩

/-- The plans of validation and of rendering agree exactly when their tables contest
the same wildcards; with hosts that are spelled alike, exactly when no name without
routes is under a wildcard with a priority. -/
theorem strict_plans_agree_iff (valid : validateModel runtime caps model = [])
    (strict : isStrict listener) :
    (StrictAgreement runtime model listener ↔
      SameContests (validatedHosts runtime model listener.key)
        (renderedHosts runtime listener (routesOf model listener.key))) ∧
    (SpelledAlike runtime model listener →
      (StrictAgreement runtime model listener ↔ NoIdleNameBelow runtime model listener)) :=
  ⟨strictAgreement_iff valid strict, fun alike =>
    (strictAgreement_iff valid strict).trans (alike.sameContests_iff strict)⟩

end

/-! ## Two listeners -/

def strictListener (hosts : Option (List String)) : Listener :=
  { key := "web", bind := "10.0.0.1", port := 80, enabled := true
    body := .http { hosts := hosts, http := some { strictPriority := some true } } }

def wideRoute : HttpRoute :=
  { key := "wide", listener := "web", hosts := ["*.example.com"], priority := 10
    action := .reject 404 }

def nameRoute : HttpRoute :=
  { key := "name", listener := "web", hosts := ["a.example.com"], priority := 5
    action := .reject 403 }

def bothRouted : Model :=
  { listeners := [strictListener none], httpRoutes := [wideRoute, nameRoute] }

theorem both_routed_agree :
    (validatedPlan Validate.plainRuntime bothRouted (strictListener none)).lowered =
        ["*example.com", "=a.example.com"] ∧
      StrictAgreement Validate.plainRuntime bothRouted (strictListener none) := by
  refine ⟨by decide +kernel, ?_⟩
  have both := @strict_plans_agree_iff Validate.plainRuntime ⟨true, none, none⟩ bothRouted
    (strictListener none) (by decide +kernel) rfl
  have alike : SpelledAlike Validate.plainRuntime bothRouted (strictListener none) := by
    refine ⟨by decide +kernel, ?_, ?_⟩
    · intro hosts none
      cases none
    · intro hosts none
      cases none
  refine (both.2 alike).mpr ?_
  intro hosts none
  cases none

def idleHosts : Option (List String) := some ["*.example.com", "a.example.com"]

def idleName : Model := { listeners := [strictListener idleHosts], httpRoutes := [wideRoute] }

/-- Rendering lowers two hosts, and validation plans none. -/
theorem idle_name_lowered_unseen :
    Validate.decodeModel Validate.plainRuntime idleName = [] ∧
      validateModel Validate.plainRuntime ⟨true, none, none⟩ idleName = [] ∧
      strictListener idleHosts ∈ idleName.listeners ∧ isStrict (strictListener idleHosts) ∧
      (renderedPlan Validate.plainRuntime idleName (strictListener idleHosts)).lowered =
        ["*example.com", "=a.example.com"] ∧
      (validatedPlan Validate.plainRuntime idleName (strictListener idleHosts)).lowered = [] ∧
      ¬ StrictAgreement Validate.plainRuntime idleName (strictListener idleHosts) := by
  have rendered : (renderedPlan Validate.plainRuntime idleName
      (strictListener idleHosts)).lowered = ["*example.com", "=a.example.com"] := by
    decide +kernel
  have validated : (validatedPlan Validate.plainRuntime idleName
      (strictListener idleHosts)).lowered = [] := by
    decide +kernel
  refine ⟨by decide +kernel, by decide +kernel, List.mem_cons_self, rfl, rendered, validated,
    fun agreement => ?_⟩
  have planned := (agreement.same "=a.example.com").mp (by rw [rendered]; decide)
  rw [validated] at planned
  cases planned

end Conf

end Barycenter
