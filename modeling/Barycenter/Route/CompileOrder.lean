import Barycenter.Foundation.DelimitedText
import Barycenter.Foundation.StableSort
import Barycenter.Route.Compile
import Mathlib.Algebra.Order.BigOperators.Group.List
import Mathlib.Algebra.Order.Group.Nat
import Mathlib.Data.List.Forall2
import Mathlib.Data.Prod.Lex

/-!
# What the compiled order and the warnings say

The errors are exact.  The order depends on the routes only, unless two of them
agree in class, host priority, path length and key, which the sort leaves in
the order of the input.  A warning is right when some request meets both routes
and the engine takes the one with the lower priority; it is not when their
paths keep them apart.
-/

namespace Barycenter

namespace Route

/-! ## The engine -/

structure Request where
  host : String
  path : String
  deriving DecidableEq, Repr

def CompiledRoute.takes (route : CompiledRoute) (request : Request) : Prop :=
  route.pattern.covers request.host ∧ route.pathPrefix.toList <+: request.path.toList

/--
The engine answers with the server of the highest class that matches the host,
and in it with the longest location that matches the path.
-/
structure Selects (entries : List CompiledRoute) (request : Request)
    (route : CompiledRoute) : Prop where
  entry : route ∈ entries
  takes : route.takes request
  server : ∀ other ∈ entries, other.pattern.covers request.host →
    classRank other.matchClass ≤ classRank route.matchClass
  location : ∀ other ∈ entries, other.pattern = route.pattern → other.takes request →
    other.pathPrefix.toList <+: route.pathPrefix.toList

/--
For some request that both match the engine selects a route of the first key
although one of the second key has the higher priority.
-/
def Overrides (entries : List CompiledRoute) (lowKey highKey : String) : Prop :=
  ∃ low ∈ entries, ∃ high ∈ entries, low.key = lowKey ∧ high.key = highKey ∧
    low.priority < high.priority ∧
    ∃ request, low.takes request ∧ high.takes request ∧ Selects entries request low

def Warns (warnings : List CompileWarning) (left right : String) : Prop :=
  ∃ warning ∈ warnings, warning.routes = [left, right] ∨ warning.routes = [right, left]

/-! ## What the claim asks for -/

def InvalidHost (platform : Platform) (route : RouteInput) : Prop :=
  ∃ refusal, parseHostPattern platform route.host = .error refusal

def SameMatch (platform : Platform) (left right : RouteInput) : Prop :=
  ∃ pattern, parseHostPattern platform left.host = .ok pattern ∧
    parseHostPattern platform right.host = .ok pattern ∧
    left.pathPrefix.getD "/" = right.pathPrefix.getD "/"

/-- Every host is valid and no two routes share pattern and path. -/
def Accepted (platform : Platform) (routes : List RouteInput) : Prop :=
  (∀ route ∈ routes, ¬InvalidHost platform route) ∧
    routes.Pairwise fun left right => ¬SameMatch platform left right

/-- What routes are sorted by: class, host priority, path length and key. -/
def routeKey (compiled : List CompiledRoute) (route : CompiledRoute) :
    Int ×ₗ Int ×ₗ Int ×ₗ List Nat :=
  toLex (-(classRank route.matchClass : Int), toLex (-hostPriority compiled route.pattern,
    toLex (-(pathLength route : Int), Text.codeUnits route.key)))

structure Faithful (platform : Platform) (routes : List RouteInput) : Prop where
  canonical : ∀ others : List RouteInput, others.Perm routes →
    (compileHostRoutes platform others).order = (compileHostRoutes platform routes).order
  sorted : Accepted platform routes →
    (compileHostRoutes platform routes).order.Perm (compiledRoutes platform routes) ∧
      (compileHostRoutes platform routes).order.Pairwise fun left right =>
        routeKey (compiledRoutes platform routes) left ≤
          routeKey (compiledRoutes platform routes) right
  refused : (compileHostRoutes platform routes).errors ≠ [] ↔
    (∃ route ∈ routes, InvalidHost platform route) ∨
      ¬routes.Pairwise fun left right => ¬SameMatch platform left right
  warned : Accepted platform routes → ∀ left right,
    Warns (compileHostRoutes platform routes).warnings left right ↔
      Overrides (compiledRoutes platform routes) left right ∨
        Overrides (compiledRoutes platform routes) right left

/-! ## When it holds -/

/-- No two different entries agree in class, host priority, path length and key. -/
def NoTies (entries : List CompiledRoute) : Prop :=
  ∀ left ∈ entries, ∀ right ∈ entries, left.key = right.key →
    left.matchClass = right.matchClass →
    hostPriority entries left.pattern = hostPriority entries right.pattern →
    pathLength left = pathLength right → left = right

/-- The first has the lower priority, and its class or the length of its path goes first. -/
def Suspect (low high : CompiledRoute) : Prop :=
  isInversion low high ∨
    low.pattern = high.pattern ∧ pathLength high < pathLength low ∧ low.priority < high.priority

/--
Some path lies under both prefixes, and no other location of the first one's
host takes it away.
-/
def Meets (entries : List CompiledRoute) (low high : CompiledRoute) : Prop :=
  high.pathPrefix.toList <+: low.pathPrefix.toList ∨
    low.pathPrefix.toList <+: high.pathPrefix.toList ∧
      ∀ other ∈ entries, other.pattern = low.pattern →
        low.pathPrefix.toList <+: other.pathPrefix.toList →
        other.pathPrefix.toList <+: high.pathPrefix.toList → other.pathPrefix = low.pathPrefix

/-- Every suspect pair, or another one with the same keys, meets on some path. -/
def SuspectsMeet (entries : List CompiledRoute) : Prop :=
  ∀ low ∈ entries, ∀ high ∈ entries, Suspect low high →
    ∃ first ∈ entries, ∃ second ∈ entries, Suspect first second ∧ Meets entries first second ∧
      (first.key = low.key ∧ second.key = high.key ∨
        first.key = high.key ∧ second.key = low.key)

/-! ## Entries -/

section Entries

variable {platform : Platform} {routes : List RouteInput} {entry : CompiledRoute}

theorem mem_compiledRoutes :
    entry ∈ compiledRoutes platform routes ↔
      ∃ route ∈ routes, parseHostPattern platform route.host = .ok entry.pattern ∧
        entry = ⟨route.key, classOf entry.pattern, entry.pattern, route.priority,
          route.pathPrefix.getD "/"⟩ := by
  simp only [compiledRoutes, List.mem_filterMap, compileRoute]
  constructor
  · rintro ⟨route, member, compiled⟩
    refine ⟨route, member, ?_⟩
    cases parsed : parseHostPattern platform route.host with
    | error refusal => simp [parsed, Except.toOption] at compiled
    | ok pattern =>
        simp only [parsed, Except.toOption, Option.some.injEq] at compiled
        subst compiled
        exact ⟨rfl, rfl⟩
  · rintro ⟨route, member, parsed, same⟩
    refine ⟨route, member, ?_⟩
    rw [parsed]
    exact congrArg some same.symm

theorem matchClass_eq (member : entry ∈ compiledRoutes platform routes) :
    entry.matchClass = classOf entry.pattern := by
  obtain ⟨route, -, -, same⟩ := mem_compiledRoutes.mp member
  rw [same]

theorem labelled_of_mem (member : entry ∈ compiledRoutes platform routes) :
    entry.pattern.Labelled := by
  obtain ⟨route, -, parsed, -⟩ := mem_compiledRoutes.mp member
  exact parseHostPattern_labelled parsed

theorem compiledRoutes_of_perm {others : List RouteInput} (permutation : others.Perm routes) :
    (compiledRoutes platform others).Perm (compiledRoutes platform routes) :=
  permutation.filterMap _

end Entries

/-! ## Errors -/

section Errors

variable {platform : Platform} {routes : List RouteInput}

theorem matchKey_eq_iff {left right : CompiledRoute}
    (leftMember : left ∈ compiledRoutes platform routes)
    (rightMember : right ∈ compiledRoutes platform routes) :
    matchKey left = matchKey right ↔
      left.pattern = right.pattern ∧ left.pathPrefix = right.pathPrefix := by
  obtain ⟨leftRoute, -, leftParsed, -⟩ := mem_compiledRoutes.mp leftMember
  obtain ⟨rightRoute, -, rightParsed, -⟩ := mem_compiledRoutes.mp rightMember
  constructor
  · intro same
    have chars := congrArg String.toList same
    simp only [matchKey, String.toList_append, List.append_assoc] at chars
    obtain ⟨patterns, paths⟩ := DelimitedText.split_at_separator
      (parseHostPattern_noBar leftParsed) (parseHostPattern_noBar rightParsed) chars
    exact ⟨patternKey_injective (String.toList_inj.mp patterns), String.toList_inj.mp paths⟩
  · rintro ⟨patterns, paths⟩
    rw [matchKey, matchKey, patterns, paths]

theorem duplicateErrors_eq_nil {seen : List (String × String)} {entries : List CompiledRoute} :
    duplicateErrors seen entries = [] ↔
      (entries.map matchKey).Nodup ∧ ∀ entry ∈ entries, seen.lookup (matchKey entry) = none := by
  induction entries generalizing seen with
  | nil => simp [duplicateErrors]
  | cons first rest induction =>
      cases found : seen.lookup (matchKey first) with
      | some key =>
          simp only [duplicateErrors, found, reduceCtorEq, false_iff]
          rintro ⟨-, unseen⟩
          have missing := unseen first List.mem_cons_self
          rw [found] at missing
          cases missing
      | none =>
          simp only [duplicateErrors, found, induction, List.map_cons, List.nodup_cons,
            List.mem_map, List.mem_cons, forall_eq_or_imp, true_and, List.lookup_cons]
          constructor
          · rintro ⟨distinct, unseen⟩
            refine ⟨⟨?_, distinct⟩, ?_⟩
            · rintro ⟨entry, member, same⟩
              have missing := unseen entry member
              simp [same] at missing
            · intro entry member
              have missing := unseen entry member
              by_cases same : matchKey entry = matchKey first
              · simp [same] at missing
              · have different : (matchKey entry == matchKey first) = false := by
                  simpa using same
                rwa [different] at missing
          · rintro ⟨⟨fresh, distinct⟩, unseen⟩
            refine ⟨distinct, fun entry member => ?_⟩
            have different : (matchKey entry == matchKey first) = false := by
              simpa using fun same => fresh ⟨entry, member, same⟩
            rw [different]
            exact unseen entry member

theorem errors_eq (platform : Platform) (routes : List RouteInput) :
    (compileHostRoutes platform routes).errors = invalidHosts platform routes ++
      duplicateErrors [] ((compiledRoutes platform routes).insertionSort
        fun left right => keySortsBefore left right) := by
  unfold compileHostRoutes
  dsimp only
  split <;> rfl

theorem invalidHosts_eq_nil :
    invalidHosts platform routes = [] ↔ ∀ route ∈ routes, ¬InvalidHost platform route := by
  simp only [invalidHosts, List.filterMap_eq_nil_iff, InvalidHost, compileRoute]
  constructor
  · rintro valid route member ⟨refusal, parsed⟩
    have none_refused := valid route member
    simp [parsed] at none_refused
  · intro valid route member
    cases parsed : parseHostPattern platform route.host with
    | error refusal => exact absurd ⟨refusal, parsed⟩ (valid route member)
    | ok pattern => rfl

theorem nodup_matchKeys_iff :
    ((compiledRoutes platform routes).map matchKey).Nodup ↔
      routes.Pairwise fun left right => ¬SameMatch platform left right := by
  rw [List.Nodup, List.pairwise_map]
  have asEntries : routes.Pairwise (fun left right => ¬SameMatch platform left right) ↔
      (compiledRoutes platform routes).Pairwise fun left right =>
        ¬(left.pattern = right.pattern ∧ left.pathPrefix = right.pathPrefix) := by
    rw [compiledRoutes, List.pairwise_filterMap]
    refine List.Pairwise.iff fun left right => ?_
    simp only [compileRoute, SameMatch]
    cases leftParsed : parseHostPattern platform left.host with
    | error refusal => simp [Except.toOption]
    | ok pattern =>
        cases rightParsed : parseHostPattern platform right.host with
        | error refusal => simp [Except.toOption]
        | ok other => simp [Except.toOption, eq_comm]
  rw [asEntries]
  refine List.Pairwise.iff_of_mem fun {left right} leftMember rightMember => ?_
  rw [Ne, matchKey_eq_iff leftMember rightMember]

theorem errors_eq_nil_iff :
    (compileHostRoutes platform routes).errors = [] ↔ Accepted platform routes := by
  rw [errors_eq, List.append_eq_nil_iff, invalidHosts_eq_nil, duplicateErrors_eq_nil,
    ((List.perm_insertionSort _ _).map matchKey).nodup_iff, nodup_matchKeys_iff]
  simp [Accepted]

theorem Accepted.of_perm {others : List RouteInput} (permutation : others.Perm routes)
    (accepted : Accepted platform routes) : Accepted platform others := by
  refine ⟨fun route member => accepted.1 route (permutation.mem_iff.mp member), ?_⟩
  have distinct := nodup_matchKeys_iff.mpr accepted.2
  exact nodup_matchKeys_iff.mp
    (((compiledRoutes_of_perm permutation).map matchKey).nodup_iff.mpr distinct)

theorem order_of_accepted (accepted : Accepted platform routes) :
    (compileHostRoutes platform routes).order = compiledOrder (compiledRoutes platform routes) ∧
      (compileHostRoutes platform routes).warnings =
        analyze (compiledOrder (compiledRoutes platform routes)) := by
  have noErrors := errors_eq_nil_iff.mpr accepted
  rw [errors_eq] at noErrors
  unfold compileHostRoutes
  dsimp only
  rw [if_neg (by simp [noErrors])]
  exact ⟨rfl, rfl⟩

theorem order_of_refused (refused : ¬Accepted platform routes) :
    (compileHostRoutes platform routes).order = [] := by
  have someErrors : (compileHostRoutes platform routes).errors ≠ [] :=
    fun none_error => refused (errors_eq_nil_iff.mp none_error)
  rw [errors_eq] at someErrors
  unfold compileHostRoutes
  dsimp only
  rw [if_pos (List.length_pos_iff.mpr someErrors)]

end Errors

/-! ## Order -/

theorem routeSortsBefore_iff (compiled : List CompiledRoute) (left right : CompiledRoute) :
    routeSortsBefore (hostPriority compiled) left right ↔
      routeKey compiled left ≤ routeKey compiled right := by
  have rankLess : -(classRank left.matchClass : Int) < -(classRank right.matchClass : Int) ↔
      classRank right.matchClass < classRank left.matchClass := by omega
  have rankSame : -(classRank left.matchClass : Int) = -(classRank right.matchClass : Int) ↔
      classRank left.matchClass = classRank right.matchClass := by omega
  have priorityLess : -hostPriority compiled left.pattern < -hostPriority compiled right.pattern ↔
      hostPriority compiled right.pattern < hostPriority compiled left.pattern := by omega
  have prioritySame : -hostPriority compiled left.pattern = -hostPriority compiled right.pattern ↔
      hostPriority compiled left.pattern = hostPriority compiled right.pattern := by omega
  have lengthLess : -(pathLength left : Int) < -(pathLength right : Int) ↔
      pathLength right < pathLength left := by omega
  have lengthSame : -(pathLength left : Int) = -(pathLength right : Int) ↔
      pathLength left = pathLength right := by omega
  simp only [routeSortsBefore, routeKey, Prod.Lex.toLex_le_toLex, keySortsBefore,
    Bool.or_eq_true, Bool.and_eq_true, decide_eq_true_eq, Bool.not_eq_true',
    Text.before_eq_false_iff, rankLess, rankSame, priorityLess, prioritySame, lengthLess,
    lengthSame]

theorem classRank_injective {left right : MatchClass}
    (same : classRank left = classRank right) : left = right := by
  cases left <;> cases right <;> simp_all [classRank]

variable {left right : CompiledRoute}

/-- Entries sort alike when they agree in class, host priority, path length and key. -/
theorem routeKey_eq_iff {compiled : List CompiledRoute} :
    routeKey compiled left = routeKey compiled right ↔
      left.key = right.key ∧ left.matchClass = right.matchClass ∧
        hostPriority compiled left.pattern = hostPriority compiled right.pattern ∧
        pathLength left = pathLength right := by
  constructor
  · intro same
    have fields := congrArg ofLex same
    simp only [routeKey, ofLex_toLex, Prod.mk.injEq, toLex_inj] at fields
    obtain ⟨ranks, priorities, lengths, keys⟩ := fields
    exact ⟨Text.codeUnits_injective keys, classRank_injective (by omega), by omega, by omega⟩
  · rintro ⟨keys, classes, priorities, lengths⟩
    rw [routeKey, routeKey, keys, classes, priorities, lengths]

theorem noTies_iff {entries : List CompiledRoute} :
    NoTies entries ↔ ∀ left ∈ entries, ∀ right ∈ entries,
      routeKey entries left = routeKey entries right → left = right := by
  simp only [NoTies, routeKey_eq_iff, and_imp]

theorem max?_of_perm {left right : List Int} (permutation : left.Perm right) :
    left.max? = right.max? := by
  cases rightMax : right.max? with
  | none =>
      rw [List.max?_eq_none_iff] at rightMax ⊢
      subst rightMax
      exact permutation.eq_nil
  | some greatest =>
      rw [List.max?_eq_some_iff] at rightMax ⊢
      exact ⟨permutation.mem_iff.mpr rightMax.1,
        fun other member => rightMax.2 other (permutation.mem_iff.mp member)⟩

theorem hostPriority_of_perm {left right : List CompiledRoute} (permutation : left.Perm right) :
    hostPriority left = hostPriority right := by
  funext pattern
  rw [hostPriority, hostPriority,
    max?_of_perm ((permutation.filter _).map CompiledRoute.priority)]

theorem exists_perm_filterMap {α β : Type} {function : α → Option β} {target others : List β}
    (permutation : others.Perm target) :
    ∀ {items : List α}, items.filterMap function = target →
      ∃ reordered : List α, reordered.Perm items ∧ reordered.filterMap function = others := by
  induction permutation with
  | nil => exact fun {items} mapped => ⟨items, List.Perm.refl items, mapped⟩
  | cons first _ induction =>
      intro items mapped
      obtain ⟨skipped, item, rest, rfl, none, some, restMapped⟩ :=
        List.filterMap_eq_cons_iff.mp mapped
      obtain ⟨reordered, permuted, same⟩ := induction restMapped
      refine ⟨skipped ++ item :: reordered, (permuted.cons item).append_left skipped, ?_⟩
      rw [List.filterMap_append, List.filterMap_eq_nil_iff.mpr none]
      simp [some, same]
  | swap first second rest =>
      intro items mapped
      obtain ⟨skipped, item, tail, rfl, none, some, tailMapped⟩ :=
        List.filterMap_eq_cons_iff.mp mapped
      obtain ⟨between, other, final, rfl, noneBetween, someOther, finalMapped⟩ :=
        List.filterMap_eq_cons_iff.mp tailMapped
      refine ⟨skipped ++ (other :: item :: (between ++ final)), ?_, ?_⟩
      · refine List.Perm.append_left skipped ?_
        have moved : (other :: item :: (between ++ final)).Perm
            (item :: other :: (between ++ final)) := List.Perm.swap item other _
        exact moved.trans ((List.perm_middle.symm).cons item)
      · rw [List.filterMap_append, List.filterMap_eq_nil_iff.mpr none]
        simp [some, someOther, List.filterMap_append, finalMapped,
          List.filterMap_eq_nil_iff.mpr noneBetween]
  | trans _ _ first second =>
      intro items mapped
      obtain ⟨middle, middlePerm, middleMapped⟩ := second mapped
      obtain ⟨reordered, permuted, same⟩ := first middleMapped
      exact ⟨reordered, permuted.trans middlePerm, same⟩

section Order

variable {platform : Platform} {routes : List RouteInput}

theorem nodup_entries (accepted : Accepted platform routes) :
    (compiledRoutes platform routes).Nodup :=
  List.Nodup.of_map matchKey (nodup_matchKeys_iff.mpr accepted.2)

theorem entry_unique (accepted : Accepted platform routes)
    (leftMember : left ∈ compiledRoutes platform routes)
    (rightMember : right ∈ compiledRoutes platform routes)
    (patterns : left.pattern = right.pattern) (paths : left.pathPrefix = right.pathPrefix) :
    left = right :=
  List.inj_on_of_nodup_map (nodup_matchKeys_iff.mpr accepted.2) leftMember rightMember
    ((matchKey_eq_iff leftMember rightMember).mpr ⟨patterns, paths⟩)

theorem canonical_iff (accepted : Accepted platform routes) :
    (∀ others : List RouteInput, others.Perm routes →
        (compileHostRoutes platform others).order = (compileHostRoutes platform routes).order) ↔
      NoTies (compiledRoutes platform routes) := by
  rw [noTies_iff, ← StableSort.canonical_iff
    (routeSortsBefore_iff (compiledRoutes platform routes)) (nodup_entries accepted)]
  have order_eq : ∀ others : List RouteInput, others.Perm routes →
      (compileHostRoutes platform others).order =
        (compiledRoutes platform others).insertionSort fun left right =>
          routeSortsBefore (hostPriority (compiledRoutes platform routes)) left right := by
    intro others permutation
    rw [(order_of_accepted (accepted.of_perm permutation)).1, compiledOrder,
      hostPriority_of_perm (compiledRoutes_of_perm permutation)]
  constructor
  · intro canonical entries permutation
    obtain ⟨others, permuted, rfl⟩ := exists_perm_filterMap permutation rfl
    have same := canonical others permuted
    rwa [order_eq others permuted, order_eq routes (List.Perm.refl routes)] at same
  · intro canonical others permutation
    rw [order_eq others permutation, order_eq routes (List.Perm.refl routes)]
    exact canonical _ (compiledRoutes_of_perm permutation)

theorem canonical_of_refused (refused : ¬Accepted platform routes) {others : List RouteInput}
    (permutation : others.Perm routes) :
    (compileHostRoutes platform others).order = (compileHostRoutes platform routes).order := by
  have refusedOthers : ¬Accepted platform others :=
    fun accepted => refused (accepted.of_perm permutation.symm)
  rw [order_of_refused refused, order_of_refused refusedOthers]

theorem sorted_order (accepted : Accepted platform routes) :
    (compileHostRoutes platform routes).order.Perm (compiledRoutes platform routes) ∧
      (compileHostRoutes platform routes).order.Pairwise fun left right =>
        routeKey (compiledRoutes platform routes) left ≤
          routeKey (compiledRoutes platform routes) right := by
  rw [(order_of_accepted accepted).1]
  have sorted := StableSort.pairwise_sort
    (routeSortsBefore_iff (compiledRoutes platform routes)) (compiledRoutes platform routes)
  exact ⟨List.perm_insertionSort _ _,
    sorted.imp fun {left right} before => (routeSortsBefore_iff _ left right).mp before⟩

end Order

/-! ## Warnings -/

theorem mem_inversionWarnings {order : List CompiledRoute} {warning : CompileWarning} :
    warning ∈ inversionWarnings order ↔
      ∃ hi ∈ order, ∃ lo ∈ order, isInversion hi lo ∧ warning = inversionWarning hi lo := by
  simp only [inversionWarnings, List.mem_flatMap, List.mem_map, List.mem_filter]
  constructor
  · rintro ⟨hi, hiMember, lo, ⟨loMember, inverted⟩, rfl⟩
    exact ⟨hi, hiMember, lo, loMember, inverted, rfl⟩
  · rintro ⟨hi, hiMember, lo, loMember, inverted, rfl⟩
    exact ⟨hi, hiMember, lo, ⟨loMember, inverted⟩, rfl⟩

theorem mem_pathWarnings {order : List CompiledRoute} {warning : CompileWarning} :
    warning ∈ pathWarnings order ↔ ∃ first second, [first, second].Sublist order ∧
      isPathIgnored first second ∧ warning = pathWarning first second := by
  induction order with
  | nil => simp [pathWarnings]
  | cons head rest induction =>
      simp only [pathWarnings, List.mem_append, List.mem_map, List.mem_filter, induction]
      constructor
      · rintro (⟨second, ⟨member, ignored⟩, rfl⟩ | ⟨first, second, pair, ignored, rfl⟩)
        · exact ⟨head, second, (List.singleton_sublist.mpr member).cons_cons head, ignored, rfl⟩
        · exact ⟨first, second, pair.cons head, ignored, rfl⟩
      · rintro ⟨first, second, pair, ignored, rfl⟩
        cases pair with
        | cons _ inRest => exact Or.inr ⟨first, second, inRest, ignored, rfl⟩
        | cons_cons _ inRest =>
            exact Or.inl ⟨second, ⟨List.singleton_sublist.mp inRest, ignored⟩, rfl⟩

theorem pair_sublist_or {α : Type} {items : List α} {left right : α}
    (leftMember : left ∈ items) (rightMember : right ∈ items) (different : left ≠ right) :
    [left, right].Sublist items ∨ [right, left].Sublist items := by
  obtain ⟨before, behind, rfl⟩ := List.append_of_mem leftMember
  rcases List.mem_append.mp rightMember with earlier | later
  · exact Or.inr ((List.singleton_sublist.mpr earlier).append
      (List.singleton_sublist.mpr List.mem_cons_self))
  · rcases List.mem_cons.mp later with same | inBehind
    · exact absurd same.symm different
    · exact Or.inl (((List.singleton_sublist.mpr inBehind).cons_cons left).trans
        (List.sublist_append_right before _))

theorem sortedPair_eq (left right : String) :
    sortedPair left right = [left, right] ∨ sortedPair left right = [right, left] := by
  unfold sortedPair
  split
  · exact Or.inr rfl
  · exact Or.inl rfl

def SameKeys (left right : String) (low high : CompiledRoute) : Prop :=
  low.key = left ∧ high.key = right ∨ low.key = right ∧ high.key = left

section Warnings

variable {platform : Platform} {routes : List RouteInput}

theorem isPathIgnored_iff {order compiled : List CompiledRoute}
    (sorted : order.Pairwise fun left right => routeKey compiled left ≤ routeKey compiled right)
    (classes : ∀ entry ∈ order, entry.matchClass = classOf entry.pattern)
    {low high : CompiledRoute} :
    ([low, high].Sublist order ∧ isPathIgnored low high) ↔
      low ∈ order ∧ high ∈ order ∧ low.pattern = high.pattern ∧
        pathLength high < pathLength low ∧ low.priority < high.priority := by
  have ordered : ∀ {first second : CompiledRoute}, [first, second].Sublist order →
      first.pattern = second.pattern → pathLength second ≤ pathLength first := by
    intro first second pair same
    have before := List.pairwise_pair.mp (sorted.sublist pair)
    have firstMember : first ∈ order := pair.subset (by simp)
    have secondMember : second ∈ order := pair.subset (by simp)
    rw [← routeSortsBefore_iff] at before
    simp only [routeSortsBefore, classes first firstMember, classes second secondMember, same,
      lt_irrefl, decide_false, Bool.false_or, decide_true, Bool.true_and, Bool.or_eq_true,
      Bool.and_eq_true, decide_eq_true_eq] at before
    rcases before with shorter | ⟨equal, -⟩
    · exact Nat.le_of_lt shorter
    · exact Nat.le_of_eq equal.symm
  simp only [isPathIgnored, Bool.and_eq_true, decide_eq_true_eq]
  constructor
  · rintro ⟨pair, ⟨sameKey, different⟩, lower⟩
    have same := patternKey_injective sameKey
    exact ⟨pair.subset (by simp), pair.subset (by simp), same,
      Nat.lt_of_le_of_ne (ordered pair same) (Ne.symm different), lower⟩
  · rintro ⟨lowMember, highMember, same, longer, lower⟩
    have different : low ≠ high := fun equal => by
      rw [equal] at lower
      exact absurd lower (lt_irrefl _)
    rcases pair_sublist_or lowMember highMember different with pair | pair
    · exact ⟨pair, ⟨by rw [same], by omega⟩, lower⟩
    · have shorter := ordered pair same.symm
      omega

theorem warns_iff (accepted : Accepted platform routes) (left right : String) :
    Warns (compileHostRoutes platform routes).warnings left right ↔
      ∃ low ∈ compiledRoutes platform routes, ∃ high ∈ compiledRoutes platform routes,
        Suspect low high ∧ SameKeys left right low high := by
  obtain ⟨permuted, sorted⟩ := sorted_order accepted
  have members := fun entry => @List.Perm.mem_iff _ entry _ _ permuted
  obtain ⟨order_eq, warnings_eq⟩ := order_of_accepted accepted
  rw [order_eq] at members sorted
  have classes : ∀ entry ∈ compiledOrder (compiledRoutes platform routes),
      entry.matchClass = classOf entry.pattern :=
    fun entry member => matchClass_eq ((members entry).mp member)
  rw [warnings_eq]
  simp only [Warns, analyze, List.mem_append, mem_inversionWarnings, mem_pathWarnings]
  constructor
  · rintro ⟨warning, ⟨low, lowMember, high, highMember, inverted, rfl⟩ |
      ⟨low, high, pair, ignored, rfl⟩, keys⟩
    · refine ⟨low, (members low).mp lowMember, high, (members high).mp highMember,
        Or.inl inverted, ?_⟩
      simpa [inversionWarning, SameKeys] using keys
    · obtain ⟨lowMember, highMember, same, longer, lower⟩ :=
        (isPathIgnored_iff sorted classes).mp ⟨pair, ignored⟩
      refine ⟨low, (members low).mp lowMember, high, (members high).mp highMember,
        Or.inr ⟨same, longer, lower⟩, ?_⟩
      rcases sortedPair_eq high.key low.key with pair_eq | pair_eq
      · simp only [pathWarning, pair_eq, List.cons.injEq, and_true] at keys
        exact keys.symm.imp And.symm And.symm
      · simpa [pathWarning, pair_eq, SameKeys] using keys
  · rintro ⟨low, lowMember, high, highMember, inverted | ⟨same, longer, lower⟩, keys⟩
    · refine ⟨inversionWarning low high, Or.inl ⟨low, (members low).mpr lowMember, high,
        (members high).mpr highMember, inverted, rfl⟩, ?_⟩
      simpa [inversionWarning, SameKeys] using keys
    · obtain ⟨pair, ignored⟩ := (isPathIgnored_iff sorted classes).mpr
        ⟨(members low).mpr lowMember, (members high).mpr highMember, same, longer, lower⟩
      refine ⟨pathWarning low high, Or.inr ⟨low, high, pair, ignored, rfl⟩, ?_⟩
      rcases sortedPair_eq high.key low.key with pair_eq | pair_eq
      · simp only [pathWarning, pair_eq, List.cons.injEq, and_true]
        exact keys.symm.imp And.symm And.symm
      · simpa [pathWarning, pair_eq, SameKeys] using keys

end Warnings

/-! ## What the engine overrides -/

theorem eq_of_prefix (isPrefix : left.pathPrefix.toList <+: right.pathPrefix.toList)
    (longer : pathLength right ≤ pathLength left) : left.pathPrefix = right.pathPrefix := by
  obtain ⟨rest, whole⟩ := isPrefix
  have units : Text.codeUnits right.pathPrefix =
      Text.codeUnits left.pathPrefix ++ rest.flatMap Text.unitsOf := by
    simp [Text.codeUnits, ← whole]
  have noUnits : rest.flatMap Text.unitsOf = [] := by
    refine List.eq_nil_of_length_eq_zero ?_
    rw [pathLength, pathLength, units, List.length_append] at longer
    omega
  refine (Text.codeUnits_injective ?_).symm
  rw [units, noUnits, List.append_nil]

theorem prefix_antisymm {left right : List Char} (forward : left <+: right)
    (backward : right <+: left) : left = right :=
  forward.eq_of_length (Nat.le_antisymm forward.length_le backward.length_le)

theorem exists_free_host (entries : List CompiledRoute) (suffix : String) :
    ∃ host, (HostPattern.wildcard suffix).covers host ∧
      ∀ entry ∈ entries, entry.pattern ≠ .exact host := by
  -- A label longer than every named host.
  let size := (entries.map fun entry => (patternKey entry.pattern).length).sum
  let label := List.replicate (size + 1) 'a'
  refine ⟨String.ofList (label ++ '.' :: suffix.toList), ?_, ?_⟩
  · refine covers_wildcard_iff.mpr ⟨label, by simp [label], ?_, by simp⟩
    intro member
    have isLetter := (List.mem_replicate.mp member).2
    revert isLetter
    decide
  · intro entry member named
    have bounded : (patternKey entry.pattern).length ≤ size :=
      List.le_sum_of_mem (List.mem_map.mpr ⟨entry, member, rfl⟩)
    have longer : size < (patternKey entry.pattern).length := by
      rw [named]
      simp [patternKey, label, ← String.length_toList]
      omega
    omega

section Overrides

variable {platform : Platform} {routes : List RouteInput}

theorem pattern_unique {left right : HostPattern} {host : String}
    (leftCovers : left.covers host) (rightCovers : right.covers host)
    (same : classOf left = classOf right) : left = right := by
  cases left with
  | exact name =>
      cases right with
      | exact other =>
          rw [covers_exact_iff] at leftCovers rightCovers
          rw [← leftCovers, ← rightCovers]
      | wildcard other => cases same
  | wildcard suffix =>
      cases right with
      | exact other => cases same
      | wildcard other =>
          rw [wildcard_unique leftCovers rightCovers]

variable {low high : CompiledRoute}

theorem suspect_of_selects (accepted : Accepted platform routes) {request : Request}
    (highMember : high ∈ compiledRoutes platform routes) (lower : low.priority < high.priority)
    (highTakes : high.takes request)
    (selects : Selects (compiledRoutes platform routes) request low) :
    Suspect low high ∧ Meets (compiledRoutes platform routes) low high := by
  have lowMember := selects.entry
  have lowClass := matchClass_eq lowMember
  have highClass := matchClass_eq highMember
  have rank := selects.server high highMember highTakes.1
  by_cases same : classOf low.pattern = classOf high.pattern
  · have patterns := pattern_unique selects.takes.1 highTakes.1 same
    have under := selects.location high highMember patterns.symm highTakes
    refine ⟨Or.inr ⟨patterns, ?_, lower⟩, Or.inl under⟩
    by_contra notLonger
    have paths := eq_of_prefix under (Nat.not_lt.mp notLonger)
    have equal := entry_unique accepted lowMember highMember patterns paths.symm
    rw [equal] at lower
    exact absurd lower (lt_irrefl _)
  · rw [lowClass, highClass] at rank
    cases lowIs : low.pattern with
    | wildcard suffix =>
        cases highIs : high.pattern with
        | wildcard other => exact absurd (by rw [lowIs, highIs]; rfl) same
        | exact host =>
            rw [lowIs, highIs] at rank
            exact absurd rank (by simp [classOf, classRank])
    | exact host =>
        cases highIs : high.pattern with
        | exact other => exact absurd (by rw [lowIs, highIs]; rfl) same
        | wildcard suffix =>
            have named : request.host = host := by
              have covers := selects.takes.1
              rwa [lowIs, covers_exact_iff] at covers
            have labelled := labelled_of_mem lowMember
            rw [lowIs] at labelled
            have conflict : patternsConflict low.pattern high.pattern := by
              rw [lowIs, highIs, patternsConflict, coversOneLabel_eq_covers labelled, ← named,
                ← highIs]
              exact highTakes.1
            refine ⟨Or.inl ?_, ?_⟩
            · have rankLess : classRank high.matchClass < classRank low.matchClass := by
                rw [lowClass, highClass, lowIs, highIs]
                simp [classOf, classRank]
              simp [isInversion, rankLess, lower, conflict]
            · rcases List.prefix_or_prefix_of_prefix highTakes.2 selects.takes.2 with
                under | under
              · exact Or.inl under
              · refine Or.inr ⟨under, fun other member sameHost above below => ?_⟩
                have otherTakes : other.takes request :=
                  ⟨sameHost ▸ selects.takes.1, below.trans highTakes.2⟩
                have back := selects.location other member sameHost otherTakes
                exact String.toList_inj.mp (prefix_antisymm back above)

theorem exists_path {entries : List CompiledRoute} (meets : Meets entries low high) :
    ∃ path : String,
      low.pathPrefix.toList <+: path.toList ∧ high.pathPrefix.toList <+: path.toList ∧
        ∀ other ∈ entries, other.pattern = low.pattern → other.pathPrefix.toList <+: path.toList →
          other.pathPrefix.toList <+: low.pathPrefix.toList := by
  rcases meets with under | ⟨under, alone⟩
  · exact ⟨low.pathPrefix, List.prefix_refl _, under, fun _ _ _ below => below⟩
  · refine ⟨high.pathPrefix, under, List.prefix_refl _, fun other member same below => ?_⟩
    rcases List.prefix_or_prefix_of_prefix below under with inside | above
    · exact inside
    · exact alone other member same above below ▸ List.prefix_refl _

theorem selects_of_suspect (lowMember : low ∈ compiledRoutes platform routes)
    (highMember : high ∈ compiledRoutes platform routes) (suspect : Suspect low high)
    (meets : Meets (compiledRoutes platform routes) low high) :
    low.priority < high.priority ∧ ∃ request, low.takes request ∧ high.takes request ∧
      Selects (compiledRoutes platform routes) request low := by
  obtain ⟨path, lowUnder, highUnder, longest⟩ := exists_path meets
  have lowClass := matchClass_eq lowMember
  have highClass := matchClass_eq highMember
  have atMostExact : ∀ entry ∈ compiledRoutes platform routes,
      classRank entry.matchClass ≤ classRank .exactHost := by
    intro entry _
    cases entry.matchClass <;> decide
  -- The host on which they meet, where no entry has a higher class.
  obtain ⟨lower, host, lowCovers, highCovers, server⟩ : low.priority < high.priority ∧
      ∃ host, low.pattern.covers host ∧ high.pattern.covers host ∧
        ∀ other ∈ compiledRoutes platform routes, other.pattern.covers host →
          classRank other.matchClass ≤ classRank low.matchClass := by
    rcases suspect with inverted | ⟨patterns, -, lower⟩
    · simp only [isInversion, Bool.and_eq_true, decide_eq_true_eq] at inverted
      obtain ⟨⟨rank, lower⟩, conflict⟩ := inverted
      rw [lowClass, highClass] at rank
      cases lowIs : low.pattern with
      | wildcard suffix =>
          rw [lowIs] at rank
          cases highIs : high.pattern <;> rw [highIs] at rank <;>
            exact absurd rank (by simp [classOf, classRank])
      | exact host =>
          refine ⟨lower, host, covers_exact_iff.mpr rfl, ?_, ?_⟩
          · cases highIs : high.pattern with
            | exact other =>
                rw [lowIs, highIs] at rank
                exact absurd rank (by simp [classOf, classRank])
            | wildcard suffix =>
                have labelled := labelled_of_mem lowMember
                rw [lowIs] at labelled
                rw [lowIs, highIs, patternsConflict, coversOneLabel_eq_covers labelled] at conflict
                exact conflict
          · intro other member _
            rw [lowClass, lowIs]
            exact atMostExact other member
    · refine ⟨lower, ?_⟩
      cases lowIs : low.pattern with
      | exact host =>
          refine ⟨host, covers_exact_iff.mpr rfl, ?_, ?_⟩
          · rw [← patterns, lowIs]
            exact covers_exact_iff.mpr rfl
          · intro other member _
            rw [lowClass, lowIs]
            exact atMostExact other member
      | wildcard suffix =>
          obtain ⟨host, covers, free⟩ :=
            exists_free_host (compiledRoutes platform routes) suffix
          refine ⟨host, covers, by rw [← patterns, lowIs]; exact covers, ?_⟩
          intro other member otherCovers
          rw [lowClass, lowIs, matchClass_eq member]
          cases otherIs : other.pattern with
          | wildcard _ => exact le_refl _
          | exact name =>
              rw [otherIs, covers_exact_iff] at otherCovers
              exact absurd (by rw [otherIs, otherCovers]) (free other member)
  refine ⟨lower, ⟨host, path⟩, ⟨lowCovers, lowUnder⟩, ⟨highCovers, highUnder⟩, ?_⟩
  exact ⟨lowMember, ⟨lowCovers, lowUnder⟩, server,
    fun other member same takes => longest other member same takes.2⟩

theorem overrides_iff (accepted : Accepted platform routes) (left right : String) :
    Overrides (compiledRoutes platform routes) left right ↔
      ∃ low ∈ compiledRoutes platform routes, ∃ high ∈ compiledRoutes platform routes,
        Suspect low high ∧ Meets (compiledRoutes platform routes) low high ∧
          low.key = left ∧ high.key = right := by
  constructor
  · rintro ⟨low, lowMember, high, highMember, lowKey, highKey, lower, request, -, highTakes,
      selects⟩
    obtain ⟨suspect, meets⟩ := suspect_of_selects accepted highMember lower highTakes selects
    exact ⟨low, lowMember, high, highMember, suspect, meets, lowKey, highKey⟩
  · rintro ⟨low, lowMember, high, highMember, suspect, meets, lowKey, highKey⟩
    obtain ⟨lower, request, lowTakes, highTakes, selects⟩ :=
      selects_of_suspect lowMember highMember suspect meets
    exact ⟨low, lowMember, high, highMember, lowKey, highKey, lower, request, lowTakes,
      highTakes, selects⟩

theorem warned_iff (accepted : Accepted platform routes) :
    (∀ left right, Warns (compileHostRoutes platform routes).warnings left right ↔
        Overrides (compiledRoutes platform routes) left right ∨
          Overrides (compiledRoutes platform routes) right left) ↔
      SuspectsMeet (compiledRoutes platform routes) := by
  simp only [warns_iff accepted, overrides_iff accepted]
  constructor
  · intro exact_iff low lowMember high highMember suspect
    have reported := (exact_iff low.key high.key).mp
      ⟨low, lowMember, high, highMember, suspect, Or.inl ⟨rfl, rfl⟩⟩
    rcases reported with ⟨first, firstMember, second, secondMember, meeting, meets, keys⟩ |
      ⟨first, firstMember, second, secondMember, meeting, meets, keys⟩
    · exact ⟨first, firstMember, second, secondMember, meeting, meets, Or.inl keys⟩
    · exact ⟨first, firstMember, second, secondMember, meeting, meets, Or.inr keys⟩
  · intro allMeet left right
    constructor
    · rintro ⟨low, lowMember, high, highMember, suspect, keys⟩
      obtain ⟨first, firstMember, second, secondMember, meeting, meets, same⟩ :=
        allMeet low lowMember high highMember suspect
      have pair : SameKeys left right first second := by
        unfold SameKeys at keys ⊢
        grind
      rcases pair with aligned | crossed
      · exact Or.inl ⟨first, firstMember, second, secondMember, meeting, meets, aligned⟩
      · exact Or.inr ⟨first, firstMember, second, secondMember, meeting, meets, crossed⟩
    · rintro (⟨low, lowMember, high, highMember, suspect, -, keys⟩ |
        ⟨low, lowMember, high, highMember, suspect, -, keys⟩)
      · exact ⟨low, lowMember, high, highMember, suspect, Or.inl keys⟩
      · exact ⟨low, lowMember, high, highMember, suspect, Or.inr keys⟩

end Overrides

/--
The compilation is a canonical order with exact diagnostics exactly when, unless
it is refused, no two entries tie and the suspect pairs meet.
-/
theorem compileHostRoutes_faithful_iff (platform : Platform) (routes : List RouteInput) :
    Faithful platform routes ↔
      (Accepted platform routes → NoTies (compiledRoutes platform routes) ∧
        SuspectsMeet (compiledRoutes platform routes)) := by
  constructor
  · intro faithful accepted
    exact ⟨(canonical_iff accepted).mp faithful.canonical,
      (warned_iff accepted).mp (faithful.warned accepted)⟩
  · intro holds
    constructor
    · intro others permutation
      by_cases accepted : Accepted platform routes
      · exact (canonical_iff accepted).mpr (holds accepted).1 others permutation
      · exact canonical_of_refused accepted permutation
    · exact sorted_order
    · rw [Ne, errors_eq_nil_iff, Accepted, not_and_or]
      simp only [not_forall, not_not, exists_prop]
    · exact fun accepted => (warned_iff accepted).mpr (holds accepted).2

/-- An exact host and its wildcard with paths that no request has in common. -/
def disjointRoutes : List RouteInput := [
  ⟨"exact", "a.example.com", 1, some "/x"⟩,
  ⟨"wild", "*.example.com", 5, some "/y"⟩]

def twoHosts : List RouteInput := [
  ⟨"r", "a.example.com", 1, none⟩,
  ⟨"r", "b.example.com", 1, none⟩]

/--
A warning names two routes that never meet, and the order of two hosts of one
key is the order of the input.
-/
theorem compileHostRoutes_misreports :
    ¬Faithful plainPlatform disjointRoutes ∧ ¬Faithful plainPlatform twoHosts := by
  constructor
  · intro faithful
    have accepted : Accepted plainPlatform disjointRoutes :=
      errors_eq_nil_iff.mp (by decide +kernel)
    have compiled : compiledRoutes plainPlatform disjointRoutes = [
        ⟨"exact", .exactHost, .exact "a.example.com", 1, "/x"⟩,
        ⟨"wild", .wildcardHost, .wildcard "example.com", 5, "/y"⟩] := by decide +kernel
    have allMeet := (warned_iff accepted).mp (faithful.warned accepted)
    rw [compiled] at allMeet
    obtain ⟨first, firstMember, second, secondMember, suspect, meets, -⟩ :=
      allMeet _ List.mem_cons_self _ (List.mem_cons_of_mem _ List.mem_cons_self)
        (Or.inl (by decide +kernel))
    have apart : ∀ low ∈ [(⟨"exact", .exactHost, .exact "a.example.com", 1, "/x"⟩ : CompiledRoute),
          ⟨"wild", .wildcardHost, .wildcard "example.com", 5, "/y"⟩],
        ∀ high ∈ [(⟨"exact", .exactHost, .exact "a.example.com", 1, "/x"⟩ : CompiledRoute),
          ⟨"wild", .wildcardHost, .wildcard "example.com", 5, "/y"⟩],
        low.priority < high.priority →
          ¬high.pathPrefix.toList <+: low.pathPrefix.toList ∧
            ¬low.pathPrefix.toList <+: high.pathPrefix.toList := by decide +kernel
    have lower : first.priority < second.priority := by
      rcases suspect with inverted | ⟨-, -, lower⟩
      · simp only [isInversion, Bool.and_eq_true, decide_eq_true_eq] at inverted
        exact inverted.1.2
      · exact lower
    obtain ⟨notUnder, notAbove⟩ := apart first firstMember second secondMember lower
    exact meets.elim notUnder fun above => notAbove above.1
  · intro faithful
    have swapped := faithful.canonical twoHosts.reverse (List.reverse_perm _)
    revert swapped
    decide +kernel

end Route

end Barycenter
