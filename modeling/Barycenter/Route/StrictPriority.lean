import Barycenter.Foundation.Components
import Barycenter.Route.Compile
import Mathlib.Data.Prod.Lex

/-!
# Strict priority

The engine looks at exact names first, then at wildcards and last at regular
expressions in their order.  Strict mode lowers whole components of the
conflict graph to regular expressions, ordered by priority and then by key,
when some wildcard of the component has a higher priority than some exact name
of it; other components are left alone.

A name is matched by at most one exact name and one wildcard, and these two
lie in one component.  So the engine serves the preferred pattern unless the
two are lowered, have the same priority, and the key of the wildcard is the
smaller one.
-/

namespace Barycenter

namespace Route

structure StrictHost where
  key : String
  pattern : HostPattern
  priority : Int
  deriving DecidableEq, Repr

structure StrictPriorityPlan where
  lowered : List String
  order : List String
  deriving DecidableEq, Repr

def rankOf (pattern : HostPattern) : Nat := classRank (classOf pattern)

section Plan

variable (hosts : List StrictHost)

def adjacent (left right : Fin hosts.length) : Bool :=
  if left < right then patternsConflict (hosts.get left).pattern (hosts.get right).pattern
  else if right < left then
    patternsConflict (hosts.get right).pattern (hosts.get left).pattern
  else false

def adj (host : Fin hosts.length) : List (Fin hosts.length) :=
  (List.finRange hosts.length).filter (adjacent hosts host)

/-- The class of the first wins although its priority is lower. -/
def invertedPair (left right : StrictHost) : Bool :=
  rankOf right.pattern < rankOf left.pattern && left.priority < right.priority

def inverted (comp : List (Fin hosts.length)) : Bool :=
  comp.any fun left => comp.any fun right => invertedPair (hosts.get left) (hosts.get right)

def loweredIdx : List (Fin hosts.length) :=
  ((Components.components (adj hosts) (List.finRange hosts.length)).filter
    (inverted hosts)).flatten

def sortsBefore (left right : StrictHost) : Bool :=
  right.priority < left.priority ||
    (left.priority = right.priority && !(Text.before right.key left.key))

def sortedIdx : List (Fin hosts.length) :=
  (loweredIdx hosts).insertionSort fun left right =>
    sortsBefore (hosts.get left) (hosts.get right)

def planStrictPriority : StrictPriorityPlan where
  lowered := ((loweredIdx hosts).map fun host => patternKey (hosts.get host).pattern).eraseDups
  order := (sortedIdx hosts).map fun host => patternKey (hosts.get host).pattern

end Plan

/-! ## The engine -/

inductive ServerName where
  /-- An exact name or a wildcard for one label. -/
  | literal (pattern : HostPattern)
  /-- An anchored expression for the pattern. -/
  | regex (pattern : HostPattern)
  deriving DecidableEq, Repr

/-- The server names in the order in which the renderer writes them. -/
def emitted (hosts : List StrictHost) : List ServerName :=
  let plan := planStrictPriority hosts
  (hosts.filter fun host => !plan.lowered.contains (patternKey host.pattern)).map
      (fun host => .literal host.pattern) ++
    plan.order.filterMap fun key =>
      (hosts.find? fun host => patternKey host.pattern = key).map fun host => .regex host.pattern

def exactName (name : String) : ServerName → Option HostPattern
  | .literal (.exact host) => if name = host then some (.exact host) else none
  | _ => none

def wildcardName (name : String) : ServerName → Option String
  | .literal (.wildcard suffix) =>
      if (HostPattern.wildcard suffix).covers name then some suffix else none
  | _ => none

def regexName (name : String) : ServerName → Option HostPattern
  | .regex pattern => if pattern.covers name then some pattern else none
  | _ => none

/-- The longer of the suffixes, the first one of equal ones. -/
def longestSuffix : List String → Option String
  | [] => none
  | suffix :: rest =>
      match longestSuffix rest with
      | none => some suffix
      | some other => if suffix.length < other.length then some other else some suffix

/-- The exact name, else the most specific wildcard, else the first expression. -/
def select (names : List ServerName) (name : String) : Option HostPattern :=
  ((names.findSome? (exactName name)).or
    ((longestSuffix (names.filterMap (wildcardName name))).map HostPattern.wildcard)).or
    (names.findSome? (regexName name))

/-! ## What strict mode is for -/

/-- Exact names are more specific than wildcards, and longer suffixes than shorter ones. -/
def moreSpecific : HostPattern → HostPattern → Prop
  | .exact _, .wildcard _ => True
  | .wildcard suffix, .wildcard other => other.length < suffix.length
  | _, .exact _ => False

/-- The highest priority among the matching patterns, the more specific one among equals. -/
def Preferred (hosts : List StrictHost) (name : String) : Option HostPattern → Prop
  | none => ∀ host ∈ hosts, ¬host.pattern.covers name
  | some pattern => ∃ host ∈ hosts, host.pattern = pattern ∧ pattern.covers name ∧
      ∀ other ∈ hosts, other.pattern.covers name → other.pattern ≠ pattern →
        other.priority < host.priority ∨
          other.priority = host.priority ∧ moreSpecific pattern other.pattern

abbrev SameComponent (hosts : List StrictHost) : Fin hosts.length → Fin hosts.length → Prop :=
  Components.Connected (adj hosts)

/-- The component of a host has a wildcard with a higher priority than an exact name of it. -/
def InvertedAround (hosts : List StrictHost) (host : Fin hosts.length) : Prop :=
  ∃ left right, SameComponent hosts host left ∧ SameComponent hosts host right ∧
    invertedPair (hosts.get left) (hosts.get right)

/-- Hosts without an inversion in their component are written as they are. -/
def Unchanged (hosts : List StrictHost) : Prop :=
  ∀ host, ¬InvertedAround hosts host →
    ServerName.literal (hosts.get host).pattern ∈ emitted hosts

/--
An exact name and a wildcard for it have the same priority, their component is
inverted, and the wildcard has the smaller key.
-/
def TieLost (hosts : List StrictHost) (name : String) : Prop :=
  ∃ exact wildcard : Fin hosts.length,
    (hosts.get exact).pattern = .exact name ∧
      rankOf (hosts.get wildcard).pattern = 2 ∧ (hosts.get wildcard).pattern.covers name ∧
      (hosts.get wildcard).priority = (hosts.get exact).priority ∧
      Text.before (hosts.get wildcard).key (hosts.get exact).key ∧
      InvertedAround hosts exact

/-- One entry a pattern and a key, with patterns that parsing has accepted. -/
structure HostRoutes (hosts : List StrictHost) : Prop where
  keys : (hosts.map StrictHost.key).Nodup
  patterns : (hosts.map StrictHost.pattern).Nodup
  parsed : ∀ host ∈ hosts, ∃ platform input, parseHostPattern platform input = .ok host.pattern

/-! ## Components and lowering -/

theorem adjacent_comm (hosts : List StrictHost) (left right : Fin hosts.length) :
    adjacent hosts left right = adjacent hosts right left := by
  unfold adjacent
  rcases lt_trichotomy left right with less | same | greater
  · simp [less, lt_asymm less]
  · rw [same]
  · simp [greater, lt_asymm greater]

variable {hosts : List StrictHost}

theorem mem_adj {left right : Fin hosts.length} :
    right ∈ adj hosts left ↔ adjacent hosts left right := by
  simp [adj]

theorem adj_symm (left right : Fin hosts.length)
    (linked : right ∈ adj hosts left) : left ∈ adj hosts right := by
  rw [mem_adj] at linked ⊢
  rwa [adjacent_comm]

theorem adjacent_of_conflict {left right : Fin hosts.length}
    (different : left ≠ right)
    (conflict : patternsConflict (hosts.get left).pattern (hosts.get right).pattern) :
    adjacent hosts left right := by
  unfold adjacent
  rcases lt_trichotomy left right with less | same | greater
  · simpa [less] using conflict
  · exact absurd same different
  · have notLess : ¬left < right := lt_asymm greater
    simpa [notLess, greater, patternsConflict_comm] using conflict

theorem InvertedAround.of_sameComponent {host other : Fin hosts.length}
    (same : SameComponent hosts host other) (inverted : InvertedAround hosts host) :
    InvertedAround hosts other := by
  obtain ⟨left, right, toLeft, toRight, pair⟩ := inverted
  have back := Components.connected_symm adj_symm same
  exact ⟨left, right, back.trans toLeft, back.trans toRight, pair⟩

theorem mem_loweredIdx {host : Fin hosts.length} :
    host ∈ loweredIdx hosts ↔ InvertedAround hosts host := by
  have inside : ∀ node next : Fin hosts.length, next ∈ adj hosts node →
      next ∈ List.finRange hosts.length := fun _ next _ => List.mem_finRange next
  simp only [loweredIdx, List.mem_flatten, List.mem_filter, inverted, List.any_eq_true]
  constructor
  · rintro ⟨comp, ⟨isComponent, left, leftIn, right, rightIn, pair⟩, member⟩
    have component_iff := fun other => @Components.mem_component_iff _ _ (adj hosts) adj_symm
      (List.finRange hosts.length) inside comp isComponent host other member
    exact ⟨left, right, (component_iff left).mp leftIn, (component_iff right).mp rightIn, pair⟩
  · rintro ⟨left, right, toLeft, toRight, pair⟩
    obtain ⟨comp, isComponent, member⟩ :=
      Components.exists_component adj_symm inside (List.mem_finRange host)
    have component_iff := fun other => @Components.mem_component_iff _ _ (adj hosts) adj_symm
      (List.finRange hosts.length) inside comp isComponent host other member
    exact ⟨comp, ⟨isComponent, left, (component_iff left).mpr toLeft, right,
      (component_iff right).mpr toRight, pair⟩, member⟩

theorem mem_sortedIdx {host : Fin hosts.length} :
    host ∈ sortedIdx hosts ↔ InvertedAround hosts host := by
  rw [sortedIdx, List.mem_insertionSort, mem_loweredIdx]

def sortKey (host : StrictHost) : Int ×ₗ List Nat :=
  toLex (-host.priority, Text.codeUnits host.key)

theorem sortsBefore_iff {left right : StrictHost} :
    sortsBefore left right ↔ sortKey left ≤ sortKey right := by
  have higher : -left.priority < -right.priority ↔ right.priority < left.priority := by omega
  have equal : -left.priority = -right.priority ↔ left.priority = right.priority := by omega
  simp only [sortsBefore, sortKey, Prod.Lex.toLex_le_toLex, Bool.or_eq_true, Bool.and_eq_true,
    decide_eq_true_eq, Bool.not_eq_true', Text.before_eq_false_iff, higher, equal]

theorem pairwise_sortedIdx (hosts : List StrictHost) :
    (sortedIdx hosts).Pairwise fun left right =>
      sortsBefore (hosts.get left) (hosts.get right) := by
  have total : Std.Total fun left right : Fin hosts.length =>
      sortsBefore (hosts.get left) (hosts.get right) = true :=
    ⟨fun left right => by simpa only [sortsBefore_iff] using le_total _ _⟩
  have transitive : IsTrans (Fin hosts.length) fun left right =>
      sortsBefore (hosts.get left) (hosts.get right) = true :=
    ⟨fun first second third => by simpa only [sortsBefore_iff] using le_trans⟩
  exact List.pairwise_insertionSort _ _

/-- The first item of a sorted list that passes a test sorts before all that pass it. -/
theorem find_first {α : Type} {before : α → α → Prop} {test : α → Bool} {items : List α}
    (sorted : items.Pairwise before) (reflexive : ∀ item, before item item) {first : α}
    (found : items.find? test = some first) :
    ∀ item ∈ items, test item → before first item := by
  intro item member passes
  obtain ⟨-, earlier, later, rfl, none⟩ := List.find?_eq_some_iff_append.mp found
  rcases List.mem_append.mp member with inEarlier | inLater
  · have fails := none item inEarlier
    simp [passes] at fails
  · rcases List.mem_cons.mp inLater with rfl | behind
    · exact reflexive _
    · have pairs := (List.pairwise_append.mp sorted).2.1
      exact (List.pairwise_cons.mp pairs).1 item behind

/-! ## What the engine selects from -/

section Routes

variable {hosts : List StrictHost} (routes : HostRoutes hosts)

include routes

theorem HostRoutes.same_of_pattern {left right : Fin hosts.length}
    (same : (hosts.get left).pattern = (hosts.get right).pattern) : left = right := by
  have injective := List.nodup_iff_injective_get.mp routes.patterns
  have mapped := @injective ⟨left, by simp⟩ ⟨right, by simp⟩ (by simpa using same)
  simpa [Fin.ext_iff] using mapped

theorem HostRoutes.same_of_key {left right : Fin hosts.length}
    (same : (hosts.get left).key = (hosts.get right).key) : left = right := by
  have injective := List.nodup_iff_injective_get.mp routes.keys
  have mapped := @injective ⟨left, by simp⟩ ⟨right, by simp⟩ (by simpa using same)
  simpa [Fin.ext_iff] using mapped

theorem HostRoutes.mem_lowered (host : Fin hosts.length) :
    patternKey (hosts.get host).pattern ∈ (planStrictPriority hosts).lowered ↔
      InvertedAround hosts host := by
  simp only [planStrictPriority, List.mem_eraseDups, List.mem_map]
  constructor
  · rintro ⟨other, lowered, same⟩
    rw [← routes.same_of_pattern (patternKey_injective same)]
    exact mem_loweredIdx.mp lowered
  · intro inverted
    exact ⟨host, mem_loweredIdx.mpr inverted, rfl⟩

theorem HostRoutes.emitted_eq :
    emitted hosts =
      (hosts.filter fun host => !(planStrictPriority hosts).lowered.contains
        (patternKey host.pattern)).map (fun host => .literal host.pattern) ++
        (sortedIdx hosts).map fun host => .regex (hosts.get host).pattern := by
  have looked : ∀ host : Fin hosts.length,
      (hosts.find? fun other => patternKey other.pattern = patternKey (hosts.get host).pattern) =
        some (hosts.get host) := by
    intro host
    cases found : hosts.find? fun other =>
        patternKey other.pattern = patternKey (hosts.get host).pattern with
    | none =>
        have fails := List.find?_eq_none.mp found _ (List.get_mem hosts host)
        simp at fails
    | some other =>
        have sameKey : patternKey other.pattern = patternKey (hosts.get host).pattern := by
          simpa using List.find?_some found
        obtain ⟨index, isOther⟩ := List.mem_iff_get.mp (List.mem_of_find?_eq_some found)
        have same := routes.same_of_pattern
          (patternKey_injective (isOther ▸ sameKey : patternKey (hosts.get index).pattern = _))
        rw [← isOther, same]
  simp only [emitted, planStrictPriority, List.filterMap_map]
  congr 1
  rw [← List.filterMap_eq_map]
  apply List.filterMap_congr
  intro host _
  simp only [Function.comp_apply, looked, Option.map_some]

variable {pattern : HostPattern}

theorem HostRoutes.mem_emitted_literal :
    ServerName.literal pattern ∈ emitted hosts ↔
      ∃ host, (hosts.get host).pattern = pattern ∧ ¬InvertedAround hosts host := by
  rw [routes.emitted_eq]
  simp only [List.mem_append, List.mem_map, List.mem_filter, Bool.not_eq_true',
    List.contains_eq_mem, decide_eq_false_iff_not, ServerName.literal.injEq, reduceCtorEq,
    and_false, exists_false, or_false]
  constructor
  · rintro ⟨host, ⟨member, unlowered⟩, rfl⟩
    obtain ⟨index, rfl⟩ := List.mem_iff_get.mp member
    exact ⟨index, rfl, fun inverted => unlowered ((routes.mem_lowered index).mpr inverted)⟩
  · rintro ⟨index, rfl, plain⟩
    exact ⟨_, ⟨List.get_mem hosts index,
      fun lowered => plain ((routes.mem_lowered index).mp lowered)⟩, rfl⟩

theorem HostRoutes.unchanged : Unchanged hosts := fun host plain =>
  routes.mem_emitted_literal.mpr ⟨host, rfl, plain⟩

variable {name : String}

theorem HostRoutes.exact_of_some
    (found : (emitted hosts).findSome? (exactName name) = some pattern) :
    pattern = .exact name ∧
      ∃ host, (hosts.get host).pattern = pattern ∧ ¬InvertedAround hosts host := by
  obtain ⟨server, member, named⟩ := List.exists_of_findSome?_eq_some found
  unfold exactName at named
  split at named
  · split at named
    · rename_i same
      cases named
      exact ⟨by rw [same], routes.mem_emitted_literal.mp member⟩
    · cases named
  · cases named

variable {host : Fin hosts.length}

theorem HostRoutes.inverted_of_exact_none
    (none_found : (emitted hosts).findSome? (exactName name) = none)
    (named : (hosts.get host).pattern = .exact name) : InvertedAround hosts host := by
  by_contra plain
  have member := routes.mem_emitted_literal.mpr ⟨host, named, plain⟩
  have fails := List.findSome?_eq_none_iff.mp none_found _ member
  simp [exactName] at fails

variable {suffix : String}

omit routes in
theorem longestSuffix_mem {suffixes : List String}
    (longest : longestSuffix suffixes = some suffix) : suffix ∈ suffixes := by
  induction suffixes generalizing suffix with
  | nil => cases longest
  | cons first rest induction =>
      rw [longestSuffix] at longest
      split at longest
      · cases longest
        exact List.mem_cons_self
      · rename_i other found
        split at longest
        · cases longest
          exact List.mem_cons_of_mem _ (induction found)
        · cases longest
          exact List.mem_cons_self

omit routes in
theorem eq_nil_of_longestSuffix {suffixes : List String} (none_longest : longestSuffix suffixes = none) :
    suffixes = [] := by
  cases suffixes with
  | nil => rfl
  | cons first rest =>
      rw [longestSuffix] at none_longest
      split at none_longest
      · cases none_longest
      · split at none_longest <;> cases none_longest

omit routes in
theorem wildcardName_eq_some {server : ServerName} :
    wildcardName name server = some suffix ↔
      server = .literal (.wildcard suffix) ∧ (HostPattern.wildcard suffix).covers name := by
  unfold wildcardName
  split
  · split
    · rename_i covers
      constructor
      · intro same
        cases same
        exact ⟨rfl, covers⟩
      · rintro ⟨same, -⟩
        cases same
        rfl
    · rename_i uncovered
      simp only [reduceCtorEq, ServerName.literal.injEq, HostPattern.wildcard.injEq, false_iff]
      rintro ⟨rfl, covers⟩
      exact uncovered covers
  · rename_i notWildcard
    simp only [reduceCtorEq, false_iff]
    rintro ⟨rfl, -⟩
    exact notWildcard _ rfl

theorem HostRoutes.wildcard_of_some
    (found : longestSuffix ((emitted hosts).filterMap (wildcardName name)) = some suffix) :
    (HostPattern.wildcard suffix).covers name ∧
      ∃ host, (hosts.get host).pattern = .wildcard suffix ∧ ¬InvertedAround hosts host := by
  obtain ⟨server, member, named⟩ := List.mem_filterMap.mp (longestSuffix_mem found)
  obtain ⟨rfl, covers⟩ := wildcardName_eq_some.mp named
  exact ⟨covers, routes.mem_emitted_literal.mp member⟩

theorem HostRoutes.inverted_of_wildcard_none
    (none_found : longestSuffix ((emitted hosts).filterMap (wildcardName name)) = none)
    (named : (hosts.get host).pattern = .wildcard suffix)
    (covers : (hosts.get host).pattern.covers name) : InvertedAround hosts host := by
  by_contra plain
  have member := routes.mem_emitted_literal.mpr ⟨host, named, plain⟩
  have present : suffix ∈ (emitted hosts).filterMap (wildcardName name) :=
    List.mem_filterMap.mpr ⟨_, member, wildcardName_eq_some.mpr ⟨rfl, named ▸ covers⟩⟩
  rw [eq_nil_of_longestSuffix none_found] at present
  cases present

omit routes in
theorem findSome_map_regex {α : Type} (items : List α) (patternOf : α → HostPattern)
    (name : String) :
    (items.map fun item => ServerName.regex (patternOf item)).findSome? (regexName name) =
      (items.find? fun item => (patternOf item).covers name).map patternOf := by
  induction items with
  | nil => rfl
  | cons first rest induction =>
      by_cases covers : (patternOf first).covers name
      · simp [regexName, covers]
      · simp [regexName, covers, induction]

theorem HostRoutes.findSome_regexName (name : String) :
    (emitted hosts).findSome? (regexName name) =
      ((sortedIdx hosts).find? fun host => (hosts.get host).pattern.covers name).map
        fun host => (hosts.get host).pattern := by
  rw [routes.emitted_eq, List.findSome?_append]
  have literals : ((hosts.filter fun host => !(planStrictPriority hosts).lowered.contains
      (patternKey host.pattern)).map fun host => ServerName.literal host.pattern).findSome?
        (regexName name) = none := by
    rw [List.findSome?_eq_none_iff]
    intro server member
    obtain ⟨host, -, rfl⟩ := List.mem_map.mp member
    rfl
  rw [literals, Option.none_or]
  exact findSome_map_regex (sortedIdx hosts) (fun host => (hosts.get host).pattern) name

theorem HostRoutes.regex_of_some
    (found : (emitted hosts).findSome? (regexName name) = some pattern) :
    ∃ host, (hosts.get host).pattern = pattern ∧ InvertedAround hosts host ∧
      pattern.covers name ∧
      ∀ other, InvertedAround hosts other → (hosts.get other).pattern.covers name →
        sortsBefore (hosts.get host) (hosts.get other) := by
  rw [routes.findSome_regexName] at found
  obtain ⟨host, first, rfl⟩ := Option.map_eq_some_iff.mp found
  have reflexive : ∀ item : Fin hosts.length,
      sortsBefore (hosts.get item) (hosts.get item) = true :=
    fun item => sortsBefore_iff.mpr le_rfl
  refine ⟨host, rfl, mem_sortedIdx.mp (List.mem_of_find?_eq_some first),
    by simpa using List.find?_some first, fun other inverted covers => ?_⟩
  exact find_first (pairwise_sortedIdx hosts) reflexive first other
    (mem_sortedIdx.mpr inverted) covers

theorem HostRoutes.uncovered_of_regex_none
    (none_found : (emitted hosts).findSome? (regexName name) = none)
    (inverted : InvertedAround hosts host) : ¬(hosts.get host).pattern.covers name := by
  rw [routes.findSome_regexName, Option.map_eq_none_iff] at none_found
  simpa using List.find?_eq_none.mp none_found host (mem_sortedIdx.mpr inverted)

/-! ## The exact name and the wildcard of one name -/

theorem HostRoutes.sameComponent {exact wildcard : Fin hosts.length}
    (exactNamed : (hosts.get exact).pattern = .exact name)
    (wildcardNamed : (hosts.get wildcard).pattern = .wildcard suffix)
    (covers : (hosts.get wildcard).pattern.covers name) :
    SameComponent hosts exact wildcard := by
  obtain ⟨platform, input, parsed⟩ := routes.parsed _ (List.get_mem hosts exact)
  have labelled := parseHostPattern_labelled parsed
  rw [exactNamed] at labelled
  have conflict : patternsConflict (hosts.get exact).pattern (hosts.get wildcard).pattern := by
    rw [exactNamed, wildcardNamed, patternsConflict, coversOneLabel_eq_covers labelled,
      ← wildcardNamed]
    exact covers
  have different : exact ≠ wildcard := by
    rintro rfl
    rw [exactNamed] at wildcardNamed
    cases wildcardNamed
  exact Relation.ReflTransGen.single (mem_adj.mpr (adjacent_of_conflict different conflict))

end Routes

section Selection

variable {hosts : List StrictHost} (routes : HostRoutes hosts)

include routes

variable {name : String}

/-- Of two different patterns for one name one is the name and the other a wildcard. -/
theorem HostRoutes.exact_or_wildcard {left right : Fin hosts.length}
    (leftCovers : (hosts.get left).pattern.covers name)
    (rightCovers : (hosts.get right).pattern.covers name)
    (different : (hosts.get left).pattern ≠ (hosts.get right).pattern) :
    ((hosts.get left).pattern = .exact name ∧
        ∃ suffix, (hosts.get right).pattern = .wildcard suffix) ∨
      ((hosts.get right).pattern = .exact name ∧
        ∃ suffix, (hosts.get left).pattern = .wildcard suffix) := by
  cases leftIs : (hosts.get left).pattern with
  | exact host =>
      rw [leftIs, covers_exact_iff] at leftCovers
      cases rightIs : (hosts.get right).pattern with
      | exact other =>
          rw [rightIs, covers_exact_iff] at rightCovers
          exact absurd (by rw [leftIs, rightIs, ← leftCovers, ← rightCovers]) different
      | wildcard suffix => exact Or.inl ⟨by rw [leftCovers], suffix, rfl⟩
  | wildcard suffix =>
      cases rightIs : (hosts.get right).pattern with
      | exact other =>
          rw [rightIs, covers_exact_iff] at rightCovers
          exact Or.inr ⟨by rw [rightCovers], suffix, rfl⟩
      | wildcard other =>
          rw [leftIs] at leftCovers
          rw [rightIs] at rightCovers
          exact absurd (by rw [leftIs, rightIs, wildcard_unique leftCovers rightCovers]) different

theorem HostRoutes.preferred_exact {exact : Fin hosts.length}
    (named : (hosts.get exact).pattern = .exact name)
    (plain : ¬InvertedAround hosts exact) : Preferred hosts name (some (.exact name)) := by
  refine ⟨_, List.get_mem hosts exact, named, covers_exact_iff.mpr rfl, ?_⟩
  intro other member covers different
  obtain ⟨index, rfl⟩ := List.mem_iff_get.mp member
  have exactCovers : (hosts.get exact).pattern.covers name := by
    rw [named]
    exact covers_exact_iff.mpr rfl
  rcases routes.exact_or_wildcard exactCovers covers
    (by rw [named]; exact different.symm) with ⟨-, suffix, wildcardNamed⟩ | ⟨again, -⟩
  · have together := routes.sameComponent named wildcardNamed covers
    have notHigher : ¬(hosts.get exact).priority < (hosts.get index).priority := by
      intro higher
      refine plain ⟨exact, index, Relation.ReflTransGen.refl, together, ?_⟩
      simp only [invertedPair, named, wildcardNamed, rankOf, classOf, classRank,
        Bool.and_eq_true, decide_eq_true_eq]
      exact ⟨by omega, higher⟩
    rcases Int.lt_or_eq_of_le (Int.not_lt.mp notHigher) with lower | same
    · exact Or.inl lower
    · refine Or.inr ⟨same, ?_⟩
      rw [wildcardNamed]
      exact trivial
  · exact absurd again different

theorem HostRoutes.preferred_wildcard {suffix : String} {wildcard : Fin hosts.length}
    (named : (hosts.get wildcard).pattern = .wildcard suffix)
    (covers : (HostPattern.wildcard suffix).covers name)
    (plain : ¬InvertedAround hosts wildcard)
    (none_exact : (emitted hosts).findSome? (exactName name) = none) :
    Preferred hosts name (some (.wildcard suffix)) := by
  refine ⟨_, List.get_mem hosts wildcard, named, covers, ?_⟩
  intro other member otherCovers different
  obtain ⟨index, rfl⟩ := List.mem_iff_get.mp member
  rcases routes.exact_or_wildcard otherCovers (by rw [named]; exact covers)
    (by rw [named]; exact different) with ⟨exactNamed, -⟩ | ⟨wrong, -⟩
  · have inverted := routes.inverted_of_exact_none none_exact exactNamed
    have together := routes.sameComponent exactNamed named (by rw [named]; exact covers)
    exact absurd (inverted.of_sameComponent together) plain
  · rw [named] at wrong
    cases wrong

/-- Among regular expressions the first one is preferred unless it is a wildcard that won a tie. -/
theorem HostRoutes.preferred_regex {first : Fin hosts.length}
    (inverted : InvertedAround hosts first) (covers : (hosts.get first).pattern.covers name)
    (sorted : ∀ other, InvertedAround hosts other → (hosts.get other).pattern.covers name →
      sortsBefore (hosts.get first) (hosts.get other))
    (kept : ¬TieLost hosts name) : Preferred hosts name (some (hosts.get first).pattern) := by
  refine ⟨_, List.get_mem hosts first, rfl, covers, ?_⟩
  intro other member otherCovers different
  obtain ⟨index, rfl⟩ := List.mem_iff_get.mp member
  rcases routes.exact_or_wildcard covers otherCovers different.symm with
    ⟨exactNamed, suffix, wildcardNamed⟩ | ⟨exactNamed, suffix, wildcardNamed⟩
  · have together := routes.sameComponent exactNamed wildcardNamed otherCovers
    have before := sorted index (inverted.of_sameComponent together) otherCovers
    simp only [sortsBefore, Bool.or_eq_true, Bool.and_eq_true, decide_eq_true_eq] at before
    rcases before with lower | ⟨same, -⟩
    · exact Or.inl lower
    · refine Or.inr ⟨same.symm, ?_⟩
      rw [exactNamed, wildcardNamed]
      exact trivial
  · have together := Components.connected_symm adj_symm
      (routes.sameComponent exactNamed wildcardNamed covers)
    have exactInverted := inverted.of_sameComponent together
    have before := sorted index exactInverted otherCovers
    simp only [sortsBefore, Bool.or_eq_true, Bool.and_eq_true, decide_eq_true_eq,
      Bool.not_eq_true'] at before
    rcases before with lower | ⟨same, notAfter⟩
    · exact Or.inl lower
    · -- A tie: the wildcard came first, so its key is not the larger one.
      have notBefore : Text.before (hosts.get first).key (hosts.get index).key = false := by
        by_contra isBefore
        exact kept ⟨index, first, exactNamed, by rw [wildcardNamed]; rfl, covers, same,
          by simpa using isBefore, exactInverted⟩
      have sameKey := Text.codeUnits_injective
        (le_antisymm (Text.before_eq_false_iff.mp notAfter)
          (Text.before_eq_false_iff.mp notBefore))
      exact absurd (congrArg (fun index => (hosts.get index).pattern)
        (routes.same_of_key sameKey.symm)) different

theorem HostRoutes.preferred_of_kept (kept : ¬TieLost hosts name) :
    Preferred hosts name (select (emitted hosts) name) := by
  unfold select
  cases exactFound : (emitted hosts).findSome? (exactName name) with
  | some pattern =>
      obtain ⟨rfl, exact, named, plain⟩ := routes.exact_of_some exactFound
      simpa using routes.preferred_exact named plain
  | none =>
      cases wildcardFound : longestSuffix ((emitted hosts).filterMap (wildcardName name)) with
      | some suffix =>
          obtain ⟨covers, wildcard, named, plain⟩ := routes.wildcard_of_some wildcardFound
          simpa using routes.preferred_wildcard named covers plain exactFound
      | none =>
          have noLiteral : ∀ host, (hosts.get host).pattern.covers name →
              InvertedAround hosts host := by
            intro host covers
            cases named : (hosts.get host).pattern with
            | exact other =>
                rw [named, covers_exact_iff] at covers
                exact routes.inverted_of_exact_none exactFound (by rw [named, covers])
            | wildcard suffix =>
                exact routes.inverted_of_wildcard_none wildcardFound named covers
          cases regexFound : (emitted hosts).findSome? (regexName name) with
          | some pattern =>
              obtain ⟨first, rfl, inverted, covers, sorted⟩ := routes.regex_of_some regexFound
              simpa using routes.preferred_regex inverted covers sorted kept
          | none =>
              intro host member covers
              obtain ⟨index, rfl⟩ := List.mem_iff_get.mp member
              exact routes.uncovered_of_regex_none regexFound (noLiteral index covers) covers

/-- A lost tie serves the wildcard, although the exact name is the more specific one. -/
theorem HostRoutes.kept_of_preferred
    (preferred : Preferred hosts name (select (emitted hosts) name)) : ¬TieLost hosts name := by
  rintro ⟨exact, wildcard, exactNamed, rank, covers, tie, smaller, inverted⟩
  obtain ⟨suffix, wildcardNamed⟩ : ∃ suffix, (hosts.get wildcard).pattern = .wildcard suffix := by
    cases named : (hosts.get wildcard).pattern with
    | exact host =>
        rw [named] at rank
        exact absurd rank (by simp [rankOf, classOf, classRank])
    | wildcard suffix => exact ⟨suffix, rfl⟩
  have together := routes.sameComponent exactNamed wildcardNamed covers
  have exactCovers : (hosts.get exact).pattern.covers name := by
    rw [exactNamed]
    exact covers_exact_iff.mpr rfl
  have noExact : (emitted hosts).findSome? (exactName name) = none := by
    cases found : (emitted hosts).findSome? (exactName name) with
    | none => rfl
    | some pattern =>
        obtain ⟨rfl, other, named, plain⟩ := routes.exact_of_some found
        rw [routes.same_of_pattern (named.trans exactNamed.symm)] at plain
        exact absurd inverted plain
  have noWildcard : longestSuffix ((emitted hosts).filterMap (wildcardName name)) = none := by
    cases found : longestSuffix ((emitted hosts).filterMap (wildcardName name)) with
    | none => rfl
    | some other =>
        obtain ⟨otherCovers, host, named, plain⟩ := routes.wildcard_of_some found
        have same : other = suffix := wildcard_unique otherCovers (wildcardNamed ▸ covers)
        rw [routes.same_of_pattern (named.trans (same ▸ wildcardNamed.symm))] at plain
        exact absurd (inverted.of_sameComponent together) plain
  cases regexFound : (emitted hosts).findSome? (regexName name) with
  | none => exact routes.uncovered_of_regex_none regexFound inverted exactCovers
  | some pattern =>
      obtain ⟨first, isFirst, -, firstCovers, sorted⟩ := routes.regex_of_some regexFound
      simp only [select, noExact, noWildcard, regexFound, Option.map_none, Option.none_or]
        at preferred
      obtain ⟨host, member, isHost, -, best⟩ := preferred
      obtain ⟨index, rfl⟩ := List.mem_iff_get.mp member
      obtain rfl := routes.same_of_pattern (isHost.trans isFirst.symm)
      by_cases isExact : pattern = .exact name
      · -- The exact name cannot be the first one, because the wildcard's key is smaller.
        obtain rfl := routes.same_of_pattern (isHost.trans (isExact.trans exactNamed.symm))
        have before := sorted wildcard (inverted.of_sameComponent together) covers
        simp only [sortsBefore, Bool.or_eq_true, Bool.and_eq_true, decide_eq_true_eq,
          Bool.not_eq_true'] at before
        rcases before with lower | ⟨-, notSmaller⟩
        · rw [tie] at lower
          exact absurd lower (lt_irrefl _)
        · rw [smaller] at notSmaller
          cases notSmaller
      · have lost := best _ (List.get_mem hosts exact) exactCovers
          (by rw [exactNamed]; exact fun same => isExact same.symm)
        rw [← isHost] at firstCovers isExact
        rcases routes.exact_or_wildcard firstCovers exactCovers
          (by rw [exactNamed]; exact isExact) with ⟨named, -⟩ | ⟨-, other, named⟩
        · exact isExact named
        · have sameSuffix : other = suffix := by
            rw [named] at firstCovers
            rw [wildcardNamed] at covers
            exact wildcard_unique firstCovers covers
          have isWildcard : index = wildcard := routes.same_of_pattern (by
            rw [named, wildcardNamed, sameSuffix])
          rw [isWildcard, tie, exactNamed] at lost
          rcases lost with lower | ⟨-, specific⟩
          · exact absurd lower (lt_irrefl _)
          · rw [← isHost, named] at specific
            exact specific

/--
Strict mode serves the preferred pattern, and writes the components without
inversions as they are, exactly when no wildcard wins a tie by its key.
-/
theorem HostRoutes.strict_faithful_iff (name : String) :
    (Preferred hosts name (select (emitted hosts) name) ∧ Unchanged hosts) ↔
      ¬TieLost hosts name :=
  ⟨fun both => routes.kept_of_preferred both.1,
    fun kept => ⟨routes.preferred_of_kept kept, routes.unchanged⟩⟩

end Selection

/-- An exact name and its wildcard with one priority, and a third host that is inverted. -/
def tiedHosts : List StrictHost := [
  ⟨"a.example.com", .exact "a.example.com", 5⟩,
  ⟨"*.example.com", .wildcard "example.com", 5⟩,
  ⟨"b.example.com", .exact "b.example.com", 1⟩]

theorem tiedHosts_routes : HostRoutes tiedHosts where
  keys := by decide +kernel
  patterns := by decide +kernel
  parsed := by
    intro host member
    refine ⟨plainPlatform, host.key, ?_⟩
    simp only [tiedHosts, List.mem_cons, List.not_mem_nil, or_false] at member
    rcases member with rfl | rfl | rfl <;> rfl

theorem tiedHosts_strict :
    (Preferred tiedHosts "a.example.com" (select (emitted tiedHosts) "a.example.com") ∧
        Unchanged tiedHosts) ↔ ¬TieLost tiedHosts "a.example.com" :=
  tiedHosts_routes.strict_faithful_iff "a.example.com"

/-- Without the third host the exact name is served, and with it the wildcard. -/
theorem tiedHosts_misrouted :
    select (emitted (tiedHosts.take 2)) "a.example.com" = some (.exact "a.example.com") ∧
      select (emitted tiedHosts) "a.example.com" = some (.wildcard "example.com") ∧
      ¬Preferred tiedHosts "a.example.com" (select (emitted tiedHosts) "a.example.com") := by
  have served : select (emitted tiedHosts) "a.example.com" = some (.wildcard "example.com") := by
    decide +kernel
  refine ⟨by decide +kernel, served, ?_⟩
  rw [served]
  rintro ⟨host, member, isHost, -, best⟩
  have lost := best ⟨"a.example.com", .exact "a.example.com", 5⟩ (by simp [tiedHosts])
    (by decide +kernel) (by simp)
  simp only [tiedHosts, List.mem_cons, List.not_mem_nil, or_false] at member
  rcases member with rfl | rfl | rfl
  · cases isHost
  · simp [moreSpecific] at lost
  · cases isHost

end Route

end Barycenter
