import Barycenter.Cli.ResourceEdits
import Barycenter.Foundation.DelimitedText
import Barycenter.Model.Derived
import Mathlib.Algebra.GroupWithZero.Nat
import Mathlib.Data.List.DropRight
import Mathlib.Data.List.MinMax
import Mathlib.Data.List.Pairwise

/-!
# Routes from the lines of one form

An operator writes the rules of one host as lines: paths, sources and an action.
Lines with the same paths become one route; a line with sources becomes a rule of
that route, and the line without sources its default action.  The lines mean an
answer to every request by themselves, and the routes are to give the same answer.
-/

namespace Barycenter.Web

open Cli (trim trim_trim)
open Config

inductive GroupAction where
  | proxy (pool : String) (websocket : Bool)
  | redirect (location : String) (status : Nat)
  | reject (status : Nat)
deriving DecidableEq, Repr

def GroupAction.httpAction : GroupAction → HttpAction
  | .proxy pool websocket => .proxy pool websocket none none
  | .redirect location status => .redirect location status
  | .reject status => .reject status

structure SourceRuleInput where
  sources : List String
  address : Option SourceAddress := none
  action : GroupAction
deriving DecidableEq, Repr

structure GroupLine where
  paths : List String
  sources : List String
  address : Option SourceAddress := none
  action : GroupAction
deriving DecidableEq, Repr

structure RouteGroupInput where
  key : String
  listener : String
  hosts : List String
  lines : List GroupLine
  fallback : Option GroupAction := none
deriving DecidableEq, Repr

/-! ## One route -/

/-- The texts of a list without the blanks around them; a text of blanks is dropped. -/
def trimmedTexts (texts : List String) : List String := (texts.map trim).filter (· ≠ "")

def SourceRuleInput.issue (rule : SourceRuleInput) : Option String :=
  match rule.action with
  | .proxy pool _ => if trim pool = "" then some "출발지 규칙의 풀이 비어 있다" else none
  | .redirect location _ => if trim location = "" then some "출발지 규칙의 대상이 비어 있다" else none
  | .reject _ => none

def SourceRuleInput.httpRule (rule : SourceRuleInput) : HttpSourceRule :=
  { sources := rule.sources, action := rule.action.httpAction, address := rule.address }

def sourceRulesOf (rules : Option (List SourceRuleInput)) :
    Except String (Option (List HttpSourceRule)) :=
  let out := ((rules.getD []).map fun rule =>
    { rule with sources := trimmedTexts rule.sources }).filter fun rule => rule.sources ≠ []
  match out.findSome? SourceRuleInput.issue with
  | some issue => .error issue
  | none => .ok (if out = [] then none else some (out.map SourceRuleInput.httpRule))

/-- One path is written as `pathPrefix`, several as `pathPrefixes`, and none not at
all. -/
def pathFieldsOf (pathPrefix : Option String) (pathPrefixes : Option (List String)) :
    Option String × Option (List String) :=
  match (trimmedTexts (pathPrefix.toList ++ pathPrefixes.getD [])).eraseDups with
  | [] => (none, none)
  | [path] => (some path, none)
  | paths => (none, some paths)

structure RouteFields where
  key : String
  listener : String
  hosts : List String
  pathPrefix : Option String := none
  pathPrefixes : Option (List String) := none
  sourceRules : Option (List SourceRuleInput) := none
deriving DecidableEq, Repr

def RouteFields.route (fields : RouteFields) (action : HttpAction) : Except String HttpRoute :=
  let (pathPrefix, pathPrefixes) := pathFieldsOf fields.pathPrefix fields.pathPrefixes
  (sourceRulesOf fields.sourceRules).map fun rules =>
    { key := fields.key, listener := fields.listener, hosts := trimmedTexts fields.hosts,
      priority := 0, pathPrefix := pathPrefix, pathPrefixes := pathPrefixes, action := action,
      sourceRules := rules }

def putHttpRoutePatch (fields : RouteFields) (pool : String) (websocket : Bool) :
    Except String HttpRoute :=
  if fields.key = "" then .error "키가 비어 있다"
  else if fields.listener = "" then .error "리스너가 비어 있다"
  else if pool = "" then .error "풀이 비어 있다"
  else if trimmedTexts fields.hosts = [] then .error "호스트가 비어 있다"
  else fields.route (.proxy pool websocket none none)

def REDIRECT_STATUSES : List Nat := [301, 302, 307, 308]

def putHttpRedirectPatch (fields : RouteFields) (location : String) (status : Nat) :
    Except String HttpRoute :=
  if fields.key = "" then .error "키가 비어 있다"
  else if fields.listener = "" then .error "리스너가 비어 있다"
  else if trim location = "" then .error "대상이 비어 있다"
  else if trimmedTexts fields.hosts = [] then .error "호스트가 비어 있다"
  else if status ∉ REDIRECT_STATUSES then .error "status 가 301|302|307|308 이 아니다"
  else fields.route (.redirect (trim location) status)

def REJECT_STATUSES : List Nat := [403, 404, 444]

def putHttpRejectPatch (fields : RouteFields) (status : Nat) : Except String HttpRoute :=
  if fields.key = "" then .error "키가 비어 있다"
  else if fields.listener = "" then .error "리스너가 비어 있다"
  else if trimmedTexts fields.hosts = [] then .error "호스트가 비어 있다"
  else if status ∉ REJECT_STATUSES then .error "status 가 403|404|444 이 아니다"
  else fields.route (.reject status)

/-! ## The routes of the lines -/

def clean (texts : List String) : List String := (trimmedTexts texts).eraseDups

def GroupLine.codePaths (line : GroupLine) : List String :=
  clean (if line.paths = [] then ["/"] else line.paths)

def signature (paths : List String) : String := "\n".intercalate (sortedBy id paths)

structure Group where
  paths : List String
  lines : List GroupLine
deriving DecidableEq, Repr

def GroupLine.cleaned (line : GroupLine) : GroupLine :=
  { line with paths := line.codePaths, sources := clean line.sources }

/-- Add a line to the first group of its paths, when there is one. -/
def pushLine (line : GroupLine) : List Group → Option (List Group)
  | [] => none
  | group :: rest =>
      if signature group.paths = signature line.codePaths then
        some ({ group with lines := group.lines ++ [line.cleaned] } :: rest)
      else (pushLine line rest).map (group :: ·)

def addLine (groups : List Group) (line : GroupLine) : Except String (List Group) :=
  match pushLine line groups with
  | some pushed => .ok pushed
  | none =>
      match line.codePaths.find? fun path => groups.any fun group => path ∈ group.paths with
      | some path => .error s!"경로 {path} 가 서로 다른 묶음에 있다 — 같은 경로는 경로 목록을 똑같이 적어 한 묶음으로 모은다"
      | none => .ok (groups ++ [{ paths := line.codePaths, lines := [line.cleaned] }])

/-- The first group has the name itself, the next ones a number behind it. -/
def groupKey (key : String) (index : Nat) : String :=
  if index = 0 then trim key else s!"{trim key}-p{index + 1}"

def GroupLine.rule (line : GroupLine) : SourceRuleInput :=
  { sources := line.sources
    address := if line.address = some .connection then some .connection else none
    action := line.action }

def Group.defaults (group : Group) : List GroupLine :=
  group.lines.filter fun line => line.sources = []

def Group.sourceRules (group : Group) : List SourceRuleInput :=
  (group.lines.filter fun line => line.sources ≠ []).map GroupLine.rule

def expandGroup (input : RouteGroupInput) (index : Nat) (group : Group) :
    Except String HttpRoute :=
  let paths := ", ".intercalate group.paths
  if 1 < group.defaults.length then
    .error s!"경로 {paths} 에 출발지 없는 줄이 둘이다 — 그 경로의 기본 동작은 하나다"
  else
    match (group.defaults.head?.map GroupLine.action).or input.fallback with
    | none => .error s!"경로 {paths} 의 기본 동작을 정할 수 없다 — 출발지 없는 줄을 하나 더한다"
    | some action =>
        let fields : RouteFields :=
          { key := groupKey input.key index, listener := input.listener, hosts := input.hosts,
            pathPrefixes := some group.paths,
            sourceRules := if group.sourceRules = [] then none else some group.sourceRules }
        match action with
        | .proxy pool websocket => putHttpRoutePatch fields pool websocket
        | .redirect location status => putHttpRedirectPatch fields location status
        | .reject status => putHttpRejectPatch fields status

def expandGroups (input : RouteGroupInput) : Nat → List Group → Except String (List HttpRoute)
  | _, [] => .ok []
  | index, group :: rest => do
      let route ← expandGroup input index group
      let routes ← expandGroups input (index + 1) rest
      return route :: routes

def routeGroupPatch (input : RouteGroupInput) : Except String (List HttpRoute) :=
  if trim input.key = "" then .error "이름이 비어 있다"
  else if input.lines = [] then .error "줄이 하나도 없다"
  else do
    let groups ← input.lines.foldlM addLine []
    expandGroups input 0 groups

/-! ## What routes and lines say -/

/-- A request with the two addresses that it can be told by. -/
structure Request (α : Type) where
  path : String
  visitor : α
  connection : α

def Request.address {α : Type} (request : Request α) : Option SourceAddress → α
  | some .connection => request.connection
  | _ => request.visitor

/-- The longest of the paths that the request starts with. -/
def longestMatch (paths : List String) (path : String) : Option String :=
  (paths.filter fun candidate => candidate.toList.isPrefixOf path.toList).argmax
    fun candidate => candidate.toList.length

section

variable {α : Type} (covers : String → α → Bool)

def fromSources (request : Request α) (sources : List String) (address : Option SourceAddress) :
    Bool :=
  sources.any fun source => covers source (request.address address)

def routeAction (request : Request α) (route : HttpRoute) : HttpAction :=
  match (route.sourceRules.getD []).find? fun rule =>
      fromSources covers request rule.sources rule.address with
  | some rule => rule.action
  | none => route.action

/-- The action of the route with the longest matching path. -/
def expandedAction (routes : List HttpRoute) (request : Request α) : Option HttpAction :=
  match longestMatch (routes.flatMap routePaths) request.path with
  | none => none
  | some path =>
      (routes.find? fun route => path ∈ routePaths route).map (routeAction covers request)

/-- The paths that a line is about: no path means all of them. -/
def GroupLine.pathsOf (line : GroupLine) : List String :=
  if clean line.paths = [] then ["/"] else clean line.paths

/-- The lines of the path list that owns a path, when there is only one such list. -/
def owningLines (lines : List GroupLine) (path : String) : Option (List GroupLine) :=
  let owning := lines.filter fun line => path ∈ line.pathsOf
  if owning.all fun left => owning.all fun right => left.pathsOf.isPerm right.pathsOf then
    some owning
  else none

/-- The action that the lines of one path list ask for. -/
def saidAction (input : RouteGroupInput) (request : Request α) (lines : List GroupLine) :
    Option GroupAction :=
  match lines.find? fun line => fromSources covers request (clean line.sources) line.address with
  | some line => some line.action
  | none =>
      match lines.find? fun line => clean line.sources = [] with
      | some line => some line.action
      | none => input.fallback

def linesAction (input : RouteGroupInput) (request : Request α) : Option GroupAction :=
  match longestMatch (input.lines.flatMap GroupLine.pathsOf) request.path with
  | none => none
  | some path => (owningLines input.lines path).bind (saidAction covers input request)

end

/-- The action, with no blanks around the target of a redirection. -/
def trimmedAction : HttpAction → HttpAction
  | .redirect location status => .redirect (trim location) status
  | other => other

/-- The routes give every request the action that the lines say, have keys of their
own, and share no host and path. -/
structure Faithful (input : RouteGroupInput) (routes : List HttpRoute) : Prop where
  actions : ∀ {α : Type} (covers : String → α → Bool) (request : Request α),
    (expandedAction covers routes request).map trimmedAction =
      (linesAction covers input request).map fun action => trimmedAction action.httpAction
  keys : (routes.map HttpRoute.key).Nodup
  pairs : ∀ host ∈ trimmedTexts input.hosts, ∀ path ∈ input.lines.flatMap GroupLine.pathsOf,
    routes.countP (fun route => host ∈ route.hosts ∧ path ∈ routePaths route) = 1

/-- No line has only blank paths beside a line with the path `/`, and lines whose
sorted paths read the same have the same paths. -/
structure Separated (lines : List GroupLine) : Prop where
  blanks : ∀ blank ∈ lines, blank.codePaths = [] → ∀ line ∈ lines, "/" ∉ line.codePaths
  signatures : ∀ left ∈ lines, ∀ right ∈ lines,
    signature left.codePaths = signature right.codePaths → left.codePaths.Perm right.codePaths

/-! ## Texts -/

structure Clean (texts : List String) : Prop where
  trimmed : ∀ text ∈ texts, trim text = text
  filled : ∀ text ∈ texts, text ≠ ""
  nodup : texts.Nodup

theorem nodup_eraseDups (texts : List String) : texts.eraseDups.Nodup := by
  induction texts using List.reverseRecOn with
  | nil => simp
  | append_singleton texts last induction =>
      rw [List.eraseDups_append]
      by_cases member : last ∈ texts
      · simpa [List.removeAll, member] using induction
      · refine List.nodup_append.mpr ⟨induction, ?_, ?_⟩
        · simp [List.removeAll, member, List.eraseDups_cons]
        · intro text earlier other later same
          rw [List.mem_eraseDups] at earlier later
          have isLast : other = last := List.mem_singleton.mp (List.mem_filter.mp later).1
          exact member (isLast ▸ same ▸ earlier)

theorem eraseDups_of_nodup {texts : List String} (nodup : texts.Nodup) :
    texts.eraseDups = texts := by
  induction texts with
  | nil => rfl
  | cons text rest induction =>
      obtain ⟨fresh, later⟩ := List.nodup_cons.mp nodup
      have kept : (rest.filter fun other => !other == text) = rest := by
        refine List.filter_eq_self.mpr fun other member => ?_
        have different : other ≠ text := fun same => fresh (same ▸ member)
        simpa using different
      rw [List.eraseDups_cons, kept, induction later]

theorem clean_clean (texts : List String) : Clean (clean texts) := by
  have written : ∀ text ∈ clean texts, ∃ original, trim original = text ∧ text ≠ "" := by
    intro text member
    simp only [clean, trimmedTexts, List.mem_eraseDups, List.mem_filter, List.mem_map,
      decide_eq_true_eq] at member
    obtain ⟨⟨original, -, trimmed⟩, filled⟩ := member
    exact ⟨original, trimmed, filled⟩
  refine ⟨fun text member => ?_, fun text member => ?_, nodup_eraseDups _⟩
  · obtain ⟨original, rfl, -⟩ := written text member
    exact trim_trim original
  · obtain ⟨-, -, filled⟩ := written text member
    exact filled

theorem Clean.trimmedTexts {texts : List String} (cleaned : Clean texts) :
    trimmedTexts texts = texts := by
  have same : texts.map trim = texts :=
    (List.map_congr_left cleaned.trimmed).trans (List.map_id' texts)
  rw [Web.trimmedTexts, same]
  exact List.filter_eq_self.mpr fun text member => by simpa using cleaned.filled text member

/-! ## Groups -/

variable {line : GroupLine} {lines : List GroupLine} {groups after : List Group}

theorem clean_codePaths (line : GroupLine) : Clean line.codePaths := clean_clean _

variable {left right : List String}

theorem signature_perm (same : left.Perm right) :
    signature left = signature right := by
  have sorted : sortedBy id left = sortedBy id right :=
    sortedBy_eq_of_perm same fun _ _ _ _ equal => equal
  rw [signature, signature, sorted]

/-- The group, with the line when it is one of its lines. -/
def Group.taking (line : GroupLine) (group : Group) : Group :=
  if signature group.paths = signature line.codePaths then
    { group with lines := group.lines ++ [line.cleaned] }
  else group

@[simp] theorem paths_taking (group : Group) : (group.taking line).paths = group.paths := by
  unfold Group.taking
  split <;> rfl

theorem pushLine_eq_none (none : pushLine line groups = none) :
    ∀ group ∈ groups, signature group.paths ≠ signature line.codePaths := by
  induction groups with
  | nil => simp
  | cons group rest induction =>
      rw [pushLine] at none
      split at none
      · cases none
      · rename_i different
        exact List.forall_mem_cons.mpr ⟨different, induction (Option.map_eq_none_iff.mp none)⟩

/-- The groups have neither the same signature nor a common path. -/
def Group.Apart (left right : Group) : Prop :=
  signature left.paths ≠ signature right.paths ∧ ∀ path ∈ left.paths, path ∉ right.paths

instance : Std.Symm Group.Apart :=
  ⟨fun _ _ apart => ⟨apart.1.symm, fun path inRight inLeft => apart.2 path inLeft inRight⟩⟩

theorem pushLine_eq_some (apart : groups.Pairwise Group.Apart) (pushed : pushLine line groups = some after) :
    after = groups.map (Group.taking line) ∧
      ∃ group ∈ groups, signature group.paths = signature line.codePaths := by
  induction groups generalizing after with
  | nil => cases pushed
  | cons group rest induction =>
      obtain ⟨first, others⟩ := List.pairwise_cons.mp apart
      rw [pushLine] at pushed
      split at pushed
      · rename_i same
        cases pushed
        have untouched : rest.map (Group.taking line) = rest := by
          refine (List.map_congr_left fun other member => ?_).trans (List.map_id rest)
          have different := (first other member).1
          rw [same] at different
          exact if_neg different.symm
        refine ⟨?_, group, List.mem_cons_self, same⟩
        rw [List.map_cons, untouched, Group.taking, if_pos same]
      · rename_i different
        obtain ⟨pushed, into, rfl⟩ := Option.map_eq_some_iff.mp pushed
        obtain ⟨rfl, found, member, same⟩ := induction others into
        refine ⟨?_, found, List.mem_cons_of_mem _ member, same⟩
        rw [List.map_cons, Group.taking, if_neg different]

/-- Every group has the lines with its signature, in their order, and the paths of
the first of them; every line is in a group. -/
structure Grouped (lines : List GroupLine) (groups : List Group) : Prop where
  lines_eq : ∀ group ∈ groups, group.lines =
    (lines.filter fun line => signature line.codePaths = signature group.paths).map
      GroupLine.cleaned
  first : ∀ group ∈ groups, ∃ line ∈ lines, line.codePaths = group.paths
  found : ∀ line ∈ lines, ∃ group ∈ groups, signature group.paths = signature line.codePaths
  apart : groups.Pairwise Group.Apart

theorem Grouped.taken (grouped : Grouped lines groups)
    (there : ∃ group ∈ groups, signature group.paths = signature line.codePaths) :
    Grouped (lines ++ [line]) (groups.map (Group.taking line)) := by
  refine ⟨fun group member => ?_, fun group member => ?_, fun other member => ?_, ?_⟩
  · obtain ⟨before, old, rfl⟩ := List.mem_map.mp member
    rw [paths_taking, List.filter_append, List.map_append, ← grouped.lines_eq before old]
    by_cases same : signature before.paths = signature line.codePaths
    · simp [Group.taking, same]
    · simp [Group.taking, same, Ne.symm same]
  · obtain ⟨before, old, rfl⟩ := List.mem_map.mp member
    obtain ⟨first, early, paths⟩ := grouped.first before old
    exact ⟨first, List.mem_append_left _ early, by rw [paths_taking, paths]⟩
  · have inGroups : ∃ group ∈ groups, signature group.paths = signature other.codePaths := by
      rcases List.mem_append.mp member with old | new
      · exact grouped.found other old
      · rw [List.mem_singleton.mp new]
        exact there
    obtain ⟨group, old, same⟩ := inGroups
    exact ⟨group.taking line, List.mem_map_of_mem old, by rw [paths_taking, same]⟩
  · refine List.pairwise_map.mpr (grouped.apart.imp fun apart => ?_)
    rw [Group.Apart, paths_taking, paths_taking]
    exact apart

theorem Grouped.opened (grouped : Grouped lines groups)
    (new : ∀ group ∈ groups, signature group.paths ≠ signature line.codePaths)
    (disjoint : ∀ path ∈ line.codePaths, ∀ group ∈ groups, path ∉ group.paths) :
    Grouped (lines ++ [line])
      (groups ++ [{ paths := line.codePaths, lines := [line.cleaned] }]) := by
  have unlike : ∀ other ∈ lines, signature other.codePaths ≠ signature line.codePaths := by
    intro other member same
    obtain ⟨group, there, has⟩ := grouped.found other member
    exact new group there (has.trans same)
  refine ⟨fun group member => ?_, fun group member => ?_, fun other member => ?_, ?_⟩
  · rcases List.mem_append.mp member with old | last
    · rw [List.filter_append, List.map_append, ← grouped.lines_eq group old]
      simp [Ne.symm (new group old)]
    · rw [List.mem_singleton.mp last, List.filter_append]
      have none : (lines.filter fun other =>
          signature other.codePaths = signature line.codePaths) = [] :=
        List.filter_eq_nil_iff.mpr fun other member => by simpa using unlike other member
      simp [none]
  · rcases List.mem_append.mp member with old | last
    · obtain ⟨first, early, paths⟩ := grouped.first group old
      exact ⟨first, List.mem_append_left _ early, paths⟩
    · rw [List.mem_singleton.mp last]
      exact ⟨line, by simp, rfl⟩
  · rcases List.mem_append.mp member with old | last
    · obtain ⟨group, there, has⟩ := grouped.found other old
      exact ⟨group, List.mem_append_left _ there, has⟩
    · rw [List.mem_singleton.mp last]
      exact ⟨_, List.mem_append_right _ (List.mem_singleton.mpr rfl), rfl⟩
  · refine List.pairwise_append.mpr ⟨grouped.apart, List.pairwise_singleton _ _, ?_⟩
    intro group old last member
    rw [List.mem_singleton.mp member]
    exact ⟨new group old, fun path has there => disjoint path there group old has⟩

theorem addLine_ok (grouped : Grouped lines groups) (added : addLine groups line = .ok after) :
    Grouped (lines ++ [line]) after := by
  unfold addLine at added
  split at added
  · rename_i pushed into
    cases added
    obtain ⟨rfl, there⟩ := pushLine_eq_some grouped.apart into
    exact grouped.taken there
  · rename_i none
    split at added
    · cases added
    · rename_i unowned
      cases added
      refine grouped.opened (pushLine_eq_none none) fun path member group there has => ?_
      have owned := List.find?_eq_none.mp unowned path member
      exact owned (List.any_eq_true.mpr ⟨group, there, by simpa using has⟩)

theorem groups_ok (grouped : Grouped lines groups) {later : List GroupLine}
    (folded : later.foldlM addLine groups = .ok after) : Grouped (lines ++ later) after := by
  induction later generalizing lines groups with
  | nil =>
      cases folded
      simpa using grouped
  | cons line rest induction =>
      rw [List.foldlM_cons] at folded
      cases added : addLine groups line with
      | error issue =>
          rw [added] at folded
          cases folded
      | ok next =>
          rw [added] at folded
          simpa using induction (addLine_ok grouped added) folded

theorem grouped_nil : Grouped [] [] := by
  constructor <;> simp

/-! ## Routes of groups -/

variable {input : RouteGroupInput} {index : Nat} {group : Group} {route : HttpRoute}
  {routes : List HttpRoute}

def Group.shownPaths (group : Group) : List String :=
  if group.paths = [] then ["/"] else group.paths

theorem routePaths_pathFieldsOf {paths : List String} (cleaned : Clean paths) {route : HttpRoute}
    (one : route.pathPrefix = (pathFieldsOf none (some paths)).1)
    (many : route.pathPrefixes = (pathFieldsOf none (some paths)).2) :
    routePaths route = if paths = [] then ["/"] else paths := by
  have same : (trimmedTexts ((none : Option String).toList ++ (some paths).getD [])).eraseDups =
      paths := by
    rw [Option.toList_none, List.nil_append, Option.getD_some, cleaned.trimmedTexts,
      eraseDups_of_nodup cleaned.nodup]
  rw [pathFieldsOf, same] at one many
  rcases paths with - | ⟨path, - | ⟨next, rest⟩⟩
  · simp [routePaths, one, many]
  · simp [routePaths, one, many]
  · simp [routePaths, many]

theorem sourceRulesOf_ok {rules : Option (List SourceRuleInput)}
    {out : Option (List HttpSourceRule)}
    (cleaned : ∀ rule ∈ rules.getD [], Clean rule.sources ∧ rule.sources ≠ [])
    (made : sourceRulesOf rules = .ok out) :
    out.getD [] = (rules.getD []).map SourceRuleInput.httpRule := by
  have same : (((rules.getD []).map fun rule : SourceRuleInput =>
      { rule with sources := trimmedTexts rule.sources }).filter
        fun rule => rule.sources ≠ []) = rules.getD [] := by
    have trimmed : ((rules.getD []).map fun rule : SourceRuleInput =>
        { rule with sources := trimmedTexts rule.sources }) = rules.getD [] := by
      refine (List.map_congr_left fun rule member => ?_).trans (List.map_id _)
      rw [(cleaned rule member).1.trimmedTexts]
      rfl
    rw [trimmed]
    exact List.filter_eq_self.mpr fun rule member => by simpa using (cleaned rule member).2
  simp only [sourceRulesOf, same] at made
  split at made
  · cases made
  · cases made
    split
    · rename_i empty
      rw [empty]
      rfl
    · rfl

structure RouteFields.Made (fields : RouteFields) (action : HttpAction) (route : HttpRoute) :
    Prop where
  key : route.key = fields.key
  hosts : route.hosts = trimmedTexts fields.hosts
  action : route.action = action
  one : route.pathPrefix = (pathFieldsOf fields.pathPrefix fields.pathPrefixes).1
  many : route.pathPrefixes = (pathFieldsOf fields.pathPrefix fields.pathPrefixes).2
  rules : sourceRulesOf fields.sourceRules = .ok route.sourceRules

variable {fields : RouteFields}

theorem RouteFields.route_ok {action : HttpAction}
    (made : fields.route action = .ok route) : fields.Made action route := by
  unfold RouteFields.route at made
  cases checked : sourceRulesOf fields.sourceRules with
  | error issue =>
      rw [checked] at made
      cases made
  | ok rules =>
      rw [checked] at made
      cases made
      exact ⟨rfl, rfl, rfl, rfl, rfl, checked⟩

theorem putHttpRoutePatch_ok {pool : String} {websocket : Bool}
    (made : putHttpRoutePatch fields pool websocket = .ok route) :
    trimmedTexts fields.hosts ≠ [] ∧ fields.Made (.proxy pool websocket none none) route := by
  unfold putHttpRoutePatch at made
  split_ifs at made with key listener pool hosts
  exact ⟨hosts, RouteFields.route_ok made⟩

theorem putHttpRedirectPatch_ok {location : String} {status : Nat}
    (made : putHttpRedirectPatch fields location status = .ok route) :
    trimmedTexts fields.hosts ≠ [] ∧ fields.Made (.redirect (trim location) status) route := by
  unfold putHttpRedirectPatch at made
  split_ifs at made with key listener location hosts status
  exact ⟨hosts, RouteFields.route_ok made⟩

theorem putHttpRejectPatch_ok {status : Nat}
    (made : putHttpRejectPatch fields status = .ok route) :
    trimmedTexts fields.hosts ≠ [] ∧ fields.Made (.reject status) route := by
  unfold putHttpRejectPatch at made
  split_ifs at made with key listener hosts status
  exact ⟨hosts, RouteFields.route_ok made⟩

structure Expands (input : RouteGroupInput) (index : Nat) (group : Group) (route : HttpRoute) :
    Prop where
  key : route.key = groupKey input.key index
  hosts : route.hosts = trimmedTexts input.hosts
  reachable : trimmedTexts input.hosts ≠ []
  paths : routePaths route = group.shownPaths
  rules : route.sourceRules.getD [] = group.sourceRules.map SourceRuleInput.httpRule
  action : ∃ action, (group.defaults.head?.map GroupLine.action).or input.fallback = some action ∧
    trimmedAction route.action = trimmedAction action.httpAction

theorem expandGroup_ok (cleanPaths : Clean group.paths)
    (cleanSources : ∀ line ∈ group.lines, Clean line.sources)
    (expanded : expandGroup input index group = .ok route) : Expands input index group route := by
  unfold expandGroup at expanded
  split at expanded
  · cases expanded
  · split at expanded
    · cases expanded
    · rename_i action chosen
      have sourced : ∀ rule ∈ (if group.sourceRules = [] then none
          else some group.sourceRules).getD [], Clean rule.sources ∧ rule.sources ≠ [] := by
        intro rule member
        have inRules : rule ∈ group.sourceRules := by
          split at member
          · cases member
          · exact member
        obtain ⟨line, inLines, rfl⟩ := List.mem_map.mp inRules
        obtain ⟨there, sources⟩ := List.mem_filter.mp inLines
        exact ⟨cleanSources line there, by simpa [GroupLine.rule] using sources⟩
      have unwrapped : (if group.sourceRules = [] then none
          else some group.sourceRules).getD [] = group.sourceRules := by
        split
        · rename_i empty
          exact empty.symm
        · rfl
      have whole {made : HttpAction} (hosts : trimmedTexts input.hosts ≠ [])
          (fields : RouteFields.Made
            { key := groupKey input.key index, listener := input.listener, hosts := input.hosts,
              pathPrefixes := some group.paths,
              sourceRules := if group.sourceRules = [] then none else some group.sourceRules }
            made route)
          (same : trimmedAction made = trimmedAction action.httpAction) :
          Expands input index group route := by
        refine ⟨fields.key, fields.hosts, hosts,
          routePaths_pathFieldsOf cleanPaths fields.one fields.many, ?_, action, chosen, ?_⟩
        · rw [sourceRulesOf_ok sourced fields.rules, unwrapped]
        · rw [fields.action, same]
      cases action with
      | proxy pool websocket =>
          obtain ⟨hosts, fields⟩ := putHttpRoutePatch_ok expanded
          exact whole hosts fields rfl
      | redirect location status =>
          obtain ⟨hosts, fields⟩ := putHttpRedirectPatch_ok expanded
          exact whole hosts fields (by simp [trimmedAction, GroupAction.httpAction])
      | reject status =>
          obtain ⟨hosts, fields⟩ := putHttpRejectPatch_ok expanded
          exact whole hosts fields rfl

theorem expandGroups_ok (cleanGroups : ∀ group ∈ groups, Clean group.paths ∧
      ∀ line ∈ group.lines, Clean line.sources)
    (expanded : expandGroups input index groups = .ok routes) :
    List.Forall₂ (fun route (numbered : Group × Nat) =>
      Expands input numbered.2 numbered.1 route) routes (groups.zipIdx index) := by
  induction groups generalizing index routes with
  | nil =>
      cases expanded
      exact .nil
  | cons group rest induction =>
      obtain ⟨cleanFirst, cleanRest⟩ := List.forall_mem_cons.mp cleanGroups
      cases first : expandGroup input index group with
      | error issue =>
          rw [expandGroups, first] at expanded
          cases expanded
      | ok route =>
          cases others : expandGroups input (index + 1) rest with
          | error issue =>
              rw [expandGroups, first, others] at expanded
              cases expanded
          | ok later =>
              rw [expandGroups, first, others] at expanded
              cases expanded
              rw [List.zipIdx_cons]
              exact .cons (expandGroup_ok cleanFirst.1 cleanFirst.2 first)
                (induction cleanRest others)

theorem groupKey_injective (key : String) : Function.Injective (groupKey key) := by
  have spelled (index : Nat) : (groupKey key (index + 1)).toList =
      (trim key).toList ++ ("-p".toList ++ (toString (index + 2)).toList) := by
    simp [groupKey, String.toList_append, toString]
  have longer (index : Nat) : groupKey key (index + 1) ≠ groupKey key 0 := by
    intro same
    have lengths := congrArg (fun text => text.toList.length) same
    rw [spelled] at lengths
    simp [groupKey] at lengths
  intro left right same
  cases left with
  | zero =>
      cases right with
      | zero => rfl
      | succ right => exact absurd same.symm (longer right)
  | succ left =>
      cases right with
      | zero => exact absurd same (longer left)
      | succ right =>
          have texts := congrArg String.toList same
          rw [spelled, spelled] at texts
          have numerals := List.append_cancel_left (List.append_cancel_left texts)
          have numbers := DelimitedText.numeral_injective numerals
          omega

structure Patched (input : RouteGroupInput) (groups : List Group) (routes : List HttpRoute) :
    Prop where
  grouped : Grouped input.lines groups
  expands : List.Forall₂ (fun route group => ∃ index, Expands input index group route)
    routes groups
  keys : (routes.map HttpRoute.key).Nodup

theorem keys_of_expands
    (expands : List.Forall₂ (fun route (numbered : Group × Nat) =>
      Expands input numbered.2 numbered.1 route) routes (groups.zipIdx index)) :
    routes.map HttpRoute.key = ((groups.zipIdx index).map Prod.snd).map (groupKey input.key) := by
  generalize groups.zipIdx index = numbered at expands
  induction expands with
  | nil => rfl
  | cons first rest induction => rw [List.map_cons, first.key, induction]; rfl

theorem Grouped.clean (grouped : Grouped lines groups) (member : group ∈ groups) :
    Clean group.paths ∧ ∀ line ∈ group.lines, Clean line.sources := by
  obtain ⟨first, -, paths⟩ := grouped.first group member
  refine ⟨paths ▸ clean_codePaths first, fun line inGroup => ?_⟩
  rw [grouped.lines_eq group member] at inGroup
  obtain ⟨original, -, rfl⟩ := List.mem_map.mp inGroup
  exact clean_clean original.sources

theorem routeGroupPatch_ok (made : routeGroupPatch input = .ok routes) :
    ∃ groups, Patched input groups routes := by
  unfold routeGroupPatch at made
  split_ifs at made with named empty
  cases folded : input.lines.foldlM addLine [] with
  | error issue =>
      rw [folded] at made
      cases made
  | ok groups =>
      rw [folded] at made
      have grouped : Grouped input.lines groups := groups_ok grouped_nil folded
      have expands := expandGroups_ok (fun group member => grouped.clean member) made
      refine ⟨groups, grouped, ?_, ?_⟩
      · have unnumbered : List.Forall₂ (fun route group => ∃ index, Expands input index group route)
            routes ((groups.zipIdx 0).map Prod.fst) :=
          List.forall₂_map_right_iff.mpr (expands.imp fun route numbered expands =>
            ⟨numbered.2, expands⟩)
        rwa [List.zipIdx_map_fst] at unnumbered
      · rw [keys_of_expands expands, List.zipIdx_map_snd]
        exact List.Nodup.map (groupKey_injective input.key) List.nodup_range'

/-! ## The longest match -/

variable {path : String}

theorem longestMatch_spec {paths : List String} {found : String}
    (longest : longestMatch paths path = some found) :
    found ∈ paths ∧ found.toList <+: path.toList ∧ ∀ other ∈ paths,
      other.toList <+: path.toList → other.toList.length ≤ found.toList.length := by
  obtain ⟨member, matching⟩ := List.mem_filter.mp (List.argmax_mem longest)
  refine ⟨member, List.isPrefixOf_iff_prefix.mp matching, fun other there begins => ?_⟩
  have candidate : other ∈ paths.filter fun other => other.toList.isPrefixOf path.toList :=
    List.mem_filter.mpr ⟨there, List.isPrefixOf_iff_prefix.mpr begins⟩
  exact List.le_of_mem_argmax (f := fun text : String => text.toList.length) candidate longest

theorem longestMatch_eq_none {paths : List String} (none : longestMatch paths path = none) :
    ∀ other ∈ paths, ¬ other.toList <+: path.toList := by
  intro other member begins
  have there : other ∈ paths.filter fun other => other.toList.isPrefixOf path.toList :=
    List.mem_filter.mpr ⟨member, List.isPrefixOf_iff_prefix.mpr begins⟩
  rw [List.argmax_eq_none.mp none] at there
  cases there

theorem longestMatch_congr (same : ∀ text, text ∈ left ↔ text ∈ right) :
    longestMatch left path = longestMatch right path := by
  cases first : longestMatch left path with
  | none =>
      cases second : longestMatch right path with
      | none => rfl
      | some found =>
          obtain ⟨member, begins, -⟩ := longestMatch_spec second
          exact absurd begins (longestMatch_eq_none first found ((same found).mpr member))
  | some found =>
      obtain ⟨member, begins, longest⟩ := longestMatch_spec first
      cases second : longestMatch right path with
      | none =>
          exact absurd begins (longestMatch_eq_none second found ((same found).mp member))
      | some other =>
          obtain ⟨otherMember, otherBegins, otherLongest⟩ := longestMatch_spec second
          have lengths := Nat.le_antisymm (otherLongest found ((same found).mp member) begins)
            (longest other ((same other).mpr otherMember) otherBegins)
          have texts := (List.prefix_of_prefix_length_le begins otherBegins
            (Nat.le_of_eq lengths)).eq_of_length lengths
          rw [String.toList_inj.mp texts]

theorem longestMatch_self {paths : List String} (member : path ∈ paths) :
    longestMatch paths path = some path := by
  cases found : longestMatch paths path with
  | none => exact absurd (List.prefix_refl _) (longestMatch_eq_none found path member)
  | some other =>
      obtain ⟨-, begins, longest⟩ := longestMatch_spec found
      have lengths := Nat.le_antisymm begins.length_le (longest path member (List.prefix_refl _))
      rw [String.toList_inj.mp (begins.eq_of_length lengths)]

/-! ## Lines of a group -/

theorem pathsOf_eq (line : GroupLine) :
    line.pathsOf = if line.codePaths = [] then ["/"] else line.codePaths := by
  unfold GroupLine.pathsOf GroupLine.codePaths
  by_cases none : line.paths = []
  · rw [if_pos none, none]
    decide +kernel
  · rw [if_neg none]

theorem pathsOf_perm_shownPaths (same : line.codePaths.Perm group.paths) :
    line.pathsOf.Perm group.shownPaths := by
  rw [pathsOf_eq, Group.shownPaths]
  by_cases empty : line.codePaths = []
  · have both : group.paths = [] := List.perm_nil.mp (empty ▸ same.symm)
    rw [if_pos empty, if_pos both]
  · have neither : group.paths ≠ [] := fun none => empty (List.perm_nil.mp (none ▸ same))
    rw [if_neg empty, if_neg neither]
    exact same

theorem Grouped.perm (grouped : Grouped lines groups) (separated : Separated lines)
    (member : group ∈ groups) (there : line ∈ lines)
    (same : signature line.codePaths = signature group.paths) :
    line.codePaths.Perm group.paths := by
  obtain ⟨first, early, paths⟩ := grouped.first group member
  rw [← paths] at same ⊢
  exact separated.signatures line there first early same

theorem Grouped.shown_once (grouped : Grouped lines groups) (separated : Separated lines)
    {left right : Group} (leftMember : left ∈ groups) (rightMember : right ∈ groups)
    (inLeft : path ∈ left.shownPaths) (inRight : path ∈ right.shownPaths) :
    left = right := by
  by_contra different
  obtain ⟨signatures, disjoint⟩ := grouped.apart.forall leftMember rightMember different
  obtain ⟨first, early, firstPaths⟩ := grouped.first left leftMember
  obtain ⟨second, late, secondPaths⟩ := grouped.first right rightMember
  unfold Group.shownPaths at inLeft inRight
  split at inLeft <;> split at inRight
  · rename_i leftEmpty rightEmpty
    exact signatures (by rw [leftEmpty, rightEmpty])
  · rename_i leftEmpty _
    rw [List.mem_singleton.mp inLeft, ← secondPaths] at inRight
    exact separated.blanks first early (firstPaths.trans leftEmpty) second late inRight
  · rename_i _ rightEmpty
    rw [List.mem_singleton.mp inRight, ← firstPaths] at inLeft
    exact separated.blanks second late (secondPaths.trans rightEmpty) first early inLeft
  · exact disjoint path inLeft inRight

theorem Grouped.mem_pathsOf_iff (grouped : Grouped lines groups) (separated : Separated lines)
    (member : group ∈ groups) (shown : path ∈ group.shownPaths)
    (there : line ∈ lines) :
    path ∈ line.pathsOf ↔ signature line.codePaths = signature group.paths := by
  constructor
  · intro about
    obtain ⟨own, ownMember, same⟩ := grouped.found line there
    have perm := grouped.perm separated ownMember there same.symm
    have shownThere := (pathsOf_perm_shownPaths perm).mem_iff.mp about
    rw [grouped.shown_once separated member ownMember shown shownThere]
    exact same.symm
  · intro same
    exact (pathsOf_perm_shownPaths (grouped.perm separated member there same)).mem_iff.mpr shown

theorem Grouped.mem_shownPaths_iff (grouped : Grouped lines groups) (separated : Separated lines)
 :
    path ∈ groups.flatMap Group.shownPaths ↔ path ∈ lines.flatMap GroupLine.pathsOf := by
  simp only [List.mem_flatMap]
  constructor
  · rintro ⟨group, member, shown⟩
    obtain ⟨first, early, paths⟩ := grouped.first group member
    have perm : first.codePaths.Perm group.paths := by rw [paths]
    exact ⟨first, early, (pathsOf_perm_shownPaths perm).mem_iff.mpr shown⟩
  · rintro ⟨line, there, about⟩
    obtain ⟨own, ownMember, same⟩ := grouped.found line there
    have perm := grouped.perm separated ownMember there same.symm
    exact ⟨own, ownMember, (pathsOf_perm_shownPaths perm).mem_iff.mp about⟩

def Group.linesIn (group : Group) (lines : List GroupLine) : List GroupLine :=
  lines.filter fun line => signature line.codePaths = signature group.paths

theorem Grouped.owningLines (grouped : Grouped lines groups) (separated : Separated lines)
    (member : group ∈ groups) (shown : path ∈ group.shownPaths) :
    owningLines lines path = some (group.linesIn lines) := by
  have owning : (lines.filter fun line => path ∈ line.pathsOf) = group.linesIn lines :=
    List.filter_congr fun line there => by
      simp [grouped.mem_pathsOf_iff separated member shown there]
  have one : ∀ line ∈ group.linesIn lines, line.pathsOf.Perm group.shownPaths := by
    intro line inGroup
    obtain ⟨there, same⟩ := List.mem_filter.mp inGroup
    exact pathsOf_perm_shownPaths (grouped.perm separated member there (of_decide_eq_true same))
  simp only [Web.owningLines, owning]
  rw [if_pos]
  refine List.all_eq_true.mpr fun left inLeft => List.all_eq_true.mpr fun right inRight => ?_
  exact List.isPerm_iff.mpr ((one left inLeft).trans (one right inRight).symm)

/-! ## Actions -/

section

variable {α : Type} {covers : String → α → Bool} {request : Request α}

theorem find?_rules (covers : String → α → Bool) (request : Request α)
    (lines : List GroupLine) :
    ((((lines.map GroupLine.cleaned).filter fun line => line.sources ≠ []).map
        GroupLine.rule).map SourceRuleInput.httpRule).find?
      (fun rule => fromSources covers request rule.sources rule.address) =
    (lines.find? fun line => fromSources covers request (clean line.sources) line.address).map
      fun line => line.cleaned.rule.httpRule := by
  induction lines with
  | nil => rfl
  | cons line rest induction =>
      have address : request.address line.cleaned.rule.address = request.address line.address := by
        obtain ⟨paths, sources, address, action⟩ := line
        rcases address with - | (- | -) <;> rfl
      by_cases unsourced : clean line.sources = []
      · have skipped : line.cleaned.sources = [] := unsourced
        simpa [skipped, fromSources, unsourced] using induction
      · have kept : line.cleaned.sources ≠ [] := unsourced
        have same : fromSources covers request line.cleaned.rule.httpRule.sources
            line.cleaned.rule.httpRule.address =
              fromSources covers request (clean line.sources) line.address := by
          show (clean line.sources).any _ = _
          rw [fromSources, ← address]
          rfl
        by_cases matched : fromSources covers request (clean line.sources) line.address = true
        · simp [kept, same, matched]
        · simp only [List.map_cons, kept, ne_eq, not_false_eq_true, decide_true, List.filter_cons,
            if_true, List.find?_cons, same, matched]
          exact induction

theorem Expands.routeAction {index : Nat} {lines : List GroupLine}
    (expands : Expands input index group route)
    (lines_eq : group.lines = lines.map GroupLine.cleaned) :
    some (trimmedAction (routeAction covers request route)) =
      (saidAction covers input request lines).map fun action =>
        trimmedAction action.httpAction := by
  have rules := find?_rules covers request lines
  have defaults : group.defaults.head?.map GroupLine.action =
      (lines.find? fun line => clean line.sources = []).map GroupLine.action := by
    rw [Group.defaults, lines_eq, List.head?_filter, List.find?_map, Option.map_map]
    rfl
  rw [Web.routeAction, expands.rules, Group.sourceRules, lines_eq, rules, saidAction]
  cases lines.find? fun line => fromSources covers request (clean line.sources) line.address with
  | some line => rfl
  | none =>
      obtain ⟨action, chosen, same⟩ := expands.action
      rw [defaults] at chosen
      simp only [Option.map_none, same]
      cases unsourced : lines.find? fun line => clean line.sources = [] with
      | some line =>
          rw [unsourced] at chosen
          cases chosen
          rfl
      | none =>
          rw [unsourced] at chosen
          simp only [Option.map_none, Option.none_or] at chosen
          simp only [chosen, Option.map_some]

end

/-! ## Faithful expansion -/

section

variable {related : HttpRoute → Group → Prop}

theorem mem_flatMap_of_forall₂ (same : ∀ route group, related route group →
      routePaths route = group.shownPaths)
    (expands : List.Forall₂ related routes groups) :
    routes.flatMap routePaths = groups.flatMap Group.shownPaths := by
  induction expands with
  | nil => rfl
  | cons first _ induction => rw [List.flatMap_cons, List.flatMap_cons, same _ _ first, induction]

theorem find?_of_forall₂ (chosen : HttpRoute → Bool) (named : Group → Bool)
    (same : ∀ route group, related route group → chosen route = named group)
    (expands : List.Forall₂ related routes groups) :
    Option.Rel related (routes.find? chosen) (groups.find? named) := by
  induction expands with
  | nil => exact .none
  | @cons route group _ _ first _ induction =>
      rw [List.find?_cons, List.find?_cons, same _ _ first]
      cases named group with
      | true => exact .some first
      | false => exact induction

theorem countP_of_forall₂ (chosen : HttpRoute → Bool) (named : Group → Bool)
    (same : ∀ route group, related route group → chosen route = named group)
    (expands : List.Forall₂ related routes groups) :
    routes.countP chosen = groups.countP named := by
  induction expands with
  | nil => rfl
  | cons first _ induction => rw [List.countP_cons, List.countP_cons, same _ _ first, induction]

end

theorem Patched.paths (patched : Patched input groups routes) :
    routes.flatMap routePaths = groups.flatMap Group.shownPaths := by
  refine mem_flatMap_of_forall₂ ?_ patched.expands
  rintro route group ⟨index, expands⟩
  exact expands.paths

theorem Patched.find? (patched : Patched input groups routes)
    (shown : path ∈ groups.flatMap Group.shownPaths) :
    ∃ route group index, routes.find? (fun route => path ∈ routePaths route) = some route ∧
      group ∈ groups ∧ path ∈ group.shownPaths ∧ Expands input index group route := by
  obtain ⟨own, ownMember, ownShown⟩ := List.mem_flatMap.mp shown
  have related := find?_of_forall₂ (fun route => path ∈ routePaths route)
    (fun group => path ∈ group.shownPaths)
    (by rintro route group ⟨index, expands⟩; rw [expands.paths]) patched.expands
  cases found : groups.find? fun group => path ∈ group.shownPaths with
  | none =>
      have absent := List.find?_eq_none.mp found own ownMember
      exact absurd ownShown (by simpa using absent)
  | some group =>
      rw [found] at related
      cases chosen : routes.find? fun route => path ∈ routePaths route with
      | none =>
          rw [chosen] at related
          cases related
      | some route =>
          rw [chosen] at related
          cases related with
          | some expands =>
              obtain ⟨index, expands⟩ := expands
              exact ⟨route, group, index, rfl, List.mem_of_find?_eq_some found,
                by simpa using List.find?_some found, expands⟩

theorem Patched.countP (patched : Patched input groups routes) {host : String}
    (known : host ∈ trimmedTexts input.hosts) :
    routes.countP (fun route => host ∈ route.hosts ∧ path ∈ routePaths route) =
      groups.countP fun group => path ∈ group.shownPaths := by
  refine countP_of_forall₂ _ _ ?_ patched.expands
  rintro route group ⟨index, expands⟩
  rw [expands.paths, expands.hosts]
  simp [known]

theorem countP_eq_one {named : Group → Bool} (nodup : groups.Nodup)
    (member : group ∈ groups) (has : named group = true)
    (only : ∀ other ∈ groups, named other = true → other = group) : groups.countP named = 1 := by
  have filtered : groups.filter named = groups.filter (· = group) :=
    List.filter_congr fun other there => by
      by_cases same : other = group
      · simp [same, has]
      · have unnamed : named other = false := by
          by_contra named
          exact same (only other there (by simpa using named))
        simp [same, unnamed]
  rw [List.countP_eq_length_filter, filtered, ← List.countP_eq_length_filter,
    ← List.count_eq_one_of_mem nodup member, List.count]
  exact List.countP_congr fun other _ => by simp

theorem Grouped.nodup (grouped : Grouped lines groups) : groups.Nodup :=
  grouped.apart.imp fun apart same => apart.1 (by rw [same])

theorem Patched.faithful (patched : Patched input groups routes)
    (separated : Separated input.lines) : Faithful input routes := by
  have grouped := patched.grouped
  refine ⟨fun covers request => ?_, patched.keys, fun host known path about => ?_⟩
  · have longest : longestMatch (routes.flatMap routePaths) request.path =
        longestMatch (input.lines.flatMap GroupLine.pathsOf) request.path := by
      rw [patched.paths]
      exact longestMatch_congr fun text => grouped.mem_shownPaths_iff separated
    unfold expandedAction linesAction
    rw [longest]
    cases found : longestMatch (input.lines.flatMap GroupLine.pathsOf) request.path with
    | none => rfl
    | some path =>
        have shown := (grouped.mem_shownPaths_iff separated).mpr (longestMatch_spec found).1
        obtain ⟨route, group, index, chosen, member, inGroup, expands⟩ := patched.find? shown
        simp only [chosen, grouped.owningLines separated member inGroup, Option.map_some,
          Option.bind_some]
        exact expands.routeAction (grouped.lines_eq group member)
  · rw [patched.countP known]
    obtain ⟨group, member, shown⟩ :=
      List.mem_flatMap.mp ((grouped.mem_shownPaths_iff separated).mpr about)
    exact countP_eq_one grouped.nodup member (by simpa using shown) fun other there also =>
      grouped.shown_once separated there member (of_decide_eq_true also) shown

/-! ## Forms that are not expanded faithfully -/

/-- The length of the paths when each stands on a line of its own. -/
def weight (paths : List String) : Nat := (paths.map fun path => path.toList.length + 1).sum

theorem weight_perm (same : left.Perm right) :
    weight left = weight right := (same.map _).sum_nat

theorem length_intercalate {paths : List String} (some : paths ≠ []) :
    ("\n".intercalate paths).toList.length + 1 = weight paths := by
  rw [String.toList_intercalate]
  induction paths with
  | nil => exact absurd rfl some
  | cons path rest induction =>
      cases rest with
      | nil => simp [weight, List.intercalate]
      | cons next rest =>
          have later := induction (by simp)
          have newline : "\n".toList.length = 1 := rfl
          simp only [weight, List.map_cons, List.sum_cons, List.intercalate_cons_cons,
            List.length_append] at later ⊢
          omega

theorem length_signature {paths : List String} (some : paths ≠ []) :
    (signature paths).toList.length + 1 = weight paths := by
  have sorted := sortedBy_perm id paths
  rw [← weight_perm sorted, signature, length_intercalate]
  intro none
  rw [none] at sorted
  exact some (List.nil_perm.mp sorted)

@[simp] theorem signature_nil : signature [] = "" := by decide +kernel

@[simp] theorem signature_singleton (path : String) : signature [path] = path := by
  simp [signature, sortedBy]

theorem Clean.weight_ge {paths : List String} (cleaned : Clean paths) :
    2 * paths.length ≤ weight paths := by
  obtain ⟨-, filled, -⟩ := cleaned
  induction paths with
  | nil => exact Nat.zero_le _
  | cons path rest induction =>
      obtain ⟨first, later⟩ := List.forall_mem_cons.mp filled
      have below := induction later
      have visible : path.toList.length ≠ 0 := fun none =>
        first (String.toList_eq_nil_iff.mp (List.length_eq_zero_iff.mp none))
      simp only [weight, List.map_cons, List.sum_cons, List.length_cons] at below ⊢
      omega

/-- Of two lists that read the same and are not the same, one has a path that the
other one does not have. -/
theorem exists_stranger (leftClean : Clean left)
    (rightClean : Clean right) (same : signature left = signature right)
    (unlike : ¬ left.Perm right) : ∃ path ∈ left, path ∉ right := by
  by_contra all
  push Not at all
  obtain ⟨part, samePart, sublist⟩ := List.subperm_of_subset leftClean.nodup all
  obtain ⟨rest, perm⟩ := sublist.exists_perm_append
  have parts : weight right = weight left + weight rest := by
    rw [weight_perm perm, ← weight_perm samePart]
    simp [weight]
  cases rest with
  | nil => exact unlike (samePart.symm.trans (by simpa using perm.symm))
  | cons extra rest =>
      have added : 0 < weight (extra :: rest) := by
        simp only [weight, List.map_cons, List.sum_cons]
        omega
      have rightSome : right ≠ [] := by
        rintro rfl
        rw [show weight [] = 0 from rfl] at parts
        omega
      have rightLength := length_signature rightSome
      by_cases leftNone : left = []
      · have below := rightClean.weight_ge
        have positive := List.length_pos_iff.mpr rightSome
        rw [leftNone, signature_nil] at same
        rw [← same, String.toList_empty, List.length_nil] at rightLength
        omega
      · have leftLength := length_signature leftNone
        rw [same] at leftLength
        omega

theorem eq_nil {paths : List String} (cleaned : Clean paths)
    (same : signature paths = signature []) : paths = [] := by
  by_contra filled
  have lengths := length_signature filled
  have below := cleaned.weight_ge
  have positive := List.length_pos_iff.mpr filled
  rw [same, signature_nil, String.toList_empty, List.length_nil] at lengths
  omega

theorem eq_slash {paths : List String} (cleaned : Clean paths)
    (same : signature paths = signature ["/"]) : paths = ["/"] := by
  rw [signature_singleton] at same
  have filled : paths ≠ [] := by
    rintro rfl
    rw [signature_nil] at same
    exact absurd same (by decide)
  have lengths := length_signature filled
  have below := cleaned.weight_ge
  rw [same] at lengths
  have one : "/".toList.length = 1 := rfl
  have single : paths.length = 1 := by
    have positive := List.length_pos_iff.mpr filled
    omega
  obtain ⟨path, rfl⟩ := List.length_eq_one_iff.mp single
  rw [signature_singleton] at same
  rw [same]

theorem Patched.expandedAction_ne_none {α : Type} (patched : Patched input groups routes)
    (covers : String → α → Bool) (request : Request α)
    (shown : request.path ∈ groups.flatMap Group.shownPaths) :
    expandedAction covers routes request ≠ none := by
  obtain ⟨route, group, index, chosen, -⟩ := patched.find? shown
  rw [← patched.paths] at shown
  simp [expandedAction, longestMatch_self shown, chosen]

theorem Patched.owners_agree (patched : Patched input groups routes)
    (faithful : Faithful input routes) {left right : GroupLine} (leftMember : left ∈ input.lines)
    (rightMember : right ∈ input.lines) (inLeft : path ∈ left.pathsOf)
    (inRight : path ∈ right.pathsOf) (shown : path ∈ groups.flatMap Group.shownPaths) :
    left.pathsOf.Perm right.pathsOf := by
  by_contra unlike
  have about : path ∈ input.lines.flatMap GroupLine.pathsOf :=
    List.mem_flatMap.mpr ⟨left, leftMember, inLeft⟩
  have unowned : owningLines input.lines path = none := by
    rw [owningLines, if_neg]
    intro one
    have owning {line : GroupLine} (member : line ∈ input.lines) (has : path ∈ line.pathsOf) :
        line ∈ input.lines.filter fun line => path ∈ line.pathsOf :=
      List.mem_filter.mpr ⟨member, decide_eq_true has⟩
    have perm := List.all_eq_true.mp
      (List.all_eq_true.mp one left (owning leftMember inLeft)) right (owning rightMember inRight)
    exact unlike (List.isPerm_iff.mp perm)
  let request : Request Unit := { path := path, visitor := (), connection := () }
  have same := faithful.actions (fun _ _ => false) request
  have expanded := patched.expandedAction_ne_none (fun _ _ => false) request shown
  rw [linesAction, longestMatch_self about] at same
  simp only [unowned, Option.bind_none, Option.map_none, Option.map_eq_none_iff] at same
  exact expanded same

theorem eq_of_countP_eq_one {named : Group → Bool} (one : groups.countP named = 1)
    {left right : Group} (leftMember : left ∈ groups) (rightMember : right ∈ groups)
    (leftNamed : named left = true) (rightNamed : named right = true) : left = right := by
  rw [List.countP_eq_length_filter] at one
  obtain ⟨only, filtered⟩ := List.length_eq_one_iff.mp one
  have isOnly {group : Group} (member : group ∈ groups) (has : named group = true) :
      group = only := by
    have there := List.mem_filter.mpr ⟨member, has⟩
    rw [filtered] at there
    exact List.mem_singleton.mp there
  rw [isOnly leftMember leftNamed, isOnly rightMember rightNamed]

variable {line : GroupLine}

theorem Patched.shown_countP (patched : Patched input groups routes)
    (faithful : Faithful input routes) (member : line ∈ input.lines) (about : path ∈ line.pathsOf) :
    groups.countP (fun group => path ∈ group.shownPaths) = 1 := by
  obtain ⟨own, ownMember, -⟩ := patched.grouped.found line member
  have related := patched.expands
  cases related with
  | nil => cases ownMember
  | cons first _ =>
      obtain ⟨index, expands⟩ := first
      obtain ⟨host, known⟩ := List.exists_mem_of_ne_nil _ expands.reachable
      rw [← patched.countP known]
      exact faithful.pairs host known path (List.mem_flatMap.mpr ⟨line, member, about⟩)

theorem mem_pathsOf (member : path ∈ line.codePaths) : path ∈ line.pathsOf := by
  rw [pathsOf_eq, if_neg (List.ne_nil_of_mem member)]
  exact member

theorem Patched.blanks (patched : Patched input groups routes) (faithful : Faithful input routes)
    {blank line : GroupLine} (blankMember : blank ∈ input.lines) (none : blank.codePaths = [])
    (member : line ∈ input.lines) : "/" ∉ line.codePaths := by
  intro slash
  have grouped := patched.grouped
  obtain ⟨first, firstMember, firstSame⟩ := grouped.found blank blankMember
  obtain ⟨second, secondMember, secondSame⟩ := grouped.found line member
  rw [none] at firstSame
  have firstNone := eq_nil (grouped.clean firstMember).1 firstSame
  have firstShown : "/" ∈ first.shownPaths := by simp [Group.shownPaths, firstNone]
  have blankPaths : blank.pathsOf = ["/"] := by rw [pathsOf_eq, if_pos none]
  have linePaths : line.pathsOf = line.codePaths := by
    rw [pathsOf_eq, if_neg (List.ne_nil_of_mem slash)]
  have perm := patched.owners_agree faithful blankMember member
    (by simp [blankPaths]) (mem_pathsOf slash) (List.mem_flatMap.mpr ⟨first, firstMember, firstShown⟩)
  rw [blankPaths, linePaths] at perm
  rw [List.perm_singleton.mp perm.symm] at secondSame
  have secondPaths := eq_slash (grouped.clean secondMember).1 secondSame
  have secondShown : "/" ∈ second.shownPaths := by simp [Group.shownPaths, secondPaths]
  have one := patched.shown_countP faithful member (mem_pathsOf slash)
  have same := eq_of_countP_eq_one one firstMember secondMember (by simpa using firstShown)
    (by simpa using secondShown)
  rw [← same, firstNone] at secondPaths
  cases secondPaths

theorem Patched.perm (patched : Patched input groups routes) (faithful : Faithful input routes)
    (member : line ∈ input.lines) {group : Group} (inGroups : group ∈ groups)
    (same : signature group.paths = signature line.codePaths) :
    line.codePaths.Perm group.paths := by
  have grouped := patched.grouped
  by_contra unlike
  obtain ⟨path, inLine, strange⟩ := exists_stranger (clean_codePaths line)
    (grouped.clean inGroups).1 same.symm unlike
  have one := patched.shown_countP faithful member (mem_pathsOf inLine)
  obtain ⟨other, otherMember, otherShown⟩ := List.countP_pos_iff.mp (by omega : 0 < groups.countP
    fun group => path ∈ group.shownPaths)
  have shown := of_decide_eq_true otherShown
  obtain ⟨first, early, firstPaths⟩ := grouped.first other otherMember
  have filled : other.paths ≠ [] := by
    intro none
    rw [Group.shownPaths, if_pos none, List.mem_singleton] at shown
    rw [shown] at inLine
    exact patched.blanks faithful early (firstPaths.trans none) member inLine
  rw [Group.shownPaths, if_neg filled] at shown
  have agree := patched.owners_agree faithful member early (mem_pathsOf inLine)
    (mem_pathsOf (by rwa [firstPaths]))
    (List.mem_flatMap.mpr ⟨other, otherMember, of_decide_eq_true otherShown⟩)
  rw [pathsOf_eq, if_neg (List.ne_nil_of_mem inLine), pathsOf_eq,
    if_neg (by rwa [firstPaths]), firstPaths] at agree
  have sameGroup : group = other := by
    by_contra different
    exact (grouped.apart.forall inGroups otherMember different).1
      (same.trans (signature_perm agree))
  rw [sameGroup] at strange
  exact strange shown

theorem Patched.separated (patched : Patched input groups routes)
    (faithful : Faithful input routes) : Separated input.lines := by
  refine ⟨fun blank blankMember none line member =>
    patched.blanks faithful blankMember none member, ?_⟩
  intro left leftMember right rightMember same
  obtain ⟨group, inGroups, has⟩ := patched.grouped.found left leftMember
  have leftPerm := patched.perm faithful leftMember inGroups has
  have rightPerm := patched.perm faithful rightMember inGroups (has.trans same)
  exact leftPerm.trans rightPerm.symm

/-- An accepted form is expanded faithfully exactly when its path lists are kept
apart. -/
theorem routeGroupPatch_faithful_iff {input : RouteGroupInput} {routes : List HttpRoute}
    (made : routeGroupPatch input = .ok routes) :
    Faithful input routes ↔ Separated input.lines := by
  obtain ⟨groups, patched⟩ := routeGroupPatch_ok made
  exact ⟨patched.separated, patched.faithful⟩

/-! ## Two forms -/

def blankBeside : RouteGroupInput :=
  { key := "app", listener := "web", hosts := ["a.test"]
    lines :=
      [{ paths := [" "], sources := [], action := .reject 403 },
        { paths := [], sources := [], action := .proxy "app" false }] }

/-- Two routes have the path `/` of the host. -/
theorem blank_beside_unfaithful :
    ∃ routes, routeGroupPatch blankBeside = .ok routes ∧ ¬ Faithful blankBeside routes := by
  have made : routeGroupPatch blankBeside = .ok
      [{ key := "app", listener := "web", hosts := ["a.test"], priority := 0,
          action := .reject 403 },
        { key := "app-p2", listener := "web", hosts := ["a.test"], priority := 0,
          pathPrefix := some "/", action := .proxy "app" false none none }] := by
    decide +kernel
  refine ⟨_, made, fun faithful => ?_⟩
  have once := faithful.pairs "a.test" (by decide +kernel) "/" (by decide +kernel)
  exact absurd once (by decide +kernel)

/-- Other paths for other sources, and the action of the listener otherwise. -/
def counter : RouteGroupInput :=
  { key := "counter", listener := "web", hosts := ["c.test"]
    lines :=
      [{ paths := ["/"], sources := ["@cf"], address := some .connection, action := .reject 444 },
        { paths := ["/count"], sources := ["@cf"], action := .proxy "counter" false },
        { paths := [" ", "/count "], sources := [], action := .reject 403 }]
    fallback := some (.proxy "counter" false) }

theorem counter_faithful :
    ∃ routes, routeGroupPatch counter = .ok routes ∧ Faithful counter routes := by
  have made : routeGroupPatch counter = .ok
      [{ key := "counter", listener := "web", hosts := ["c.test"], priority := 0,
          pathPrefix := some "/", action := .proxy "counter" false none none,
          sourceRules := some [⟨["@cf"], .reject 444, some .connection⟩] },
        { key := "counter-p2", listener := "web", hosts := ["c.test"], priority := 0,
          pathPrefix := some "/count", action := .reject 403,
          sourceRules := some [⟨["@cf"], .proxy "counter" false none none, none⟩] }] := by
    decide +kernel
  refine ⟨_, made, (routeGroupPatch_faithful_iff made).mpr ⟨?_, ?_⟩⟩
  · decide +kernel
  · decide +kernel

end Barycenter.Web
