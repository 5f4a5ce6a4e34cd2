import Barycenter.Route.HostPattern
import Mathlib.Data.List.Sort

/-!
# Compiling host routes

Routes are put into the order in which the engine looks at them: by match
class, by the highest priority on the host, by the length of the path prefix
and by key.  Two routes with the same pattern and path are an error, and a
compilation with errors has no order.  Warnings name pairs of routes whose
priorities the engine does not follow.
-/

namespace Barycenter

namespace Route

inductive MatchClass where
  | exactHost
  | wildcardHost
  | regexHost
  deriving DecidableEq, Repr

structure RouteInput where
  key : String
  host : String
  priority : Int
  pathPrefix : Option String
  deriving DecidableEq, Repr

structure CompiledRoute where
  key : String
  matchClass : MatchClass
  pattern : HostPattern
  priority : Int
  pathPrefix : String
  deriving DecidableEq, Repr

inductive WarningKind where
  | priorityInversion
  | pathPriorityIgnored
  deriving DecidableEq, Repr

structure CompileWarning where
  kind : WarningKind
  routes : List String
  message : String
  deriving DecidableEq, Repr

inductive ErrorKind where
  | invalidHost
  | duplicateMatch
  deriving DecidableEq, Repr

structure CompileError where
  kind : ErrorKind
  route : String
  message : String
  deriving DecidableEq, Repr

structure CompileResult where
  order : List CompiledRoute
  warnings : List CompileWarning
  errors : List CompileError
  deriving DecidableEq, Repr

/-- `CLASS_RANK` -/
def classRank : MatchClass → Nat
  | .exactHost => 3
  | .wildcardHost => 2
  | .regexHost => 1

def className : MatchClass → String
  | .exactHost => "exact_host"
  | .wildcardHost => "wildcard_host"
  | .regexHost => "regex_host"

def classOf : HostPattern → MatchClass
  | .exact _ => .exactHost
  | .wildcard _ => .wildcardHost

/-! ## Entries and errors -/

section

variable (platform : Platform)

def compileRoute (route : RouteInput) : Except CompileError CompiledRoute :=
  match parseHostPattern platform route.host with
  | .error refusal => .error ⟨.invalidHost, route.key, refusal.message⟩
  | .ok pattern =>
      .ok ⟨route.key, classOf pattern, pattern, route.priority, route.pathPrefix.getD "/"⟩

def compiledRoutes (routes : List RouteInput) : List CompiledRoute :=
  routes.filterMap fun route => (compileRoute platform route).toOption

def invalidHosts (routes : List RouteInput) : List CompileError :=
  routes.filterMap fun route =>
    match compileRoute platform route with
    | .error refused => some refused
    | .ok _ => none

end

def matchKey (route : CompiledRoute) : String :=
  patternKey route.pattern ++ "|" ++ route.pathPrefix

/-- The first route with each condition is kept in `seen`; later ones are errors. -/
def duplicateErrors : List (String × String) → List CompiledRoute → List CompileError
  | _, [] => []
  | seen, route :: rest =>
      let k := matchKey route
      match seen.lookup k with
      | none => duplicateErrors ((k, route.key) :: seen) rest
      | some first =>
          ⟨.duplicateMatch, route.key, "'" ++ first ++ "' 와 매치 조건이 같다 (" ++ k ++
            "). nginx 가 중복 location 으로 거부한다."⟩ :: duplicateErrors seen rest

def keySortsBefore (left right : CompiledRoute) : Bool := !(Text.before right.key left.key)

/-! ## Order -/

def hostPriority (compiled : List CompiledRoute) (pattern : HostPattern) : Int :=
  ((compiled.filter fun route => patternKey route.pattern = patternKey pattern).map
    CompiledRoute.priority).max?.getD 0

def pathLength (route : CompiledRoute) : Nat := (Text.codeUnits route.pathPrefix).length

/-- Not after: class, then priority of the host, then path length, then key. -/
def routeSortsBefore (priorityOf : HostPattern → Int) (left right : CompiledRoute) : Bool :=
  classRank right.matchClass < classRank left.matchClass ||
    (classRank left.matchClass = classRank right.matchClass &&
      (priorityOf right.pattern < priorityOf left.pattern ||
        (priorityOf left.pattern = priorityOf right.pattern &&
          (pathLength right < pathLength left ||
            (pathLength left = pathLength right && keySortsBefore left right)))))

/-! ## Warnings -/

/-- The class of the first wins over the priority of the second on some host. -/
def isInversion (hi lo : CompiledRoute) : Bool :=
  classRank lo.matchClass < classRank hi.matchClass && hi.priority < lo.priority &&
    patternsConflict hi.pattern lo.pattern

def inversionWarning (hi lo : CompiledRoute) : CompileWarning where
  kind := .priorityInversion
  routes := [hi.key, lo.key]
  message :=
    "'" ++ hi.key ++ "'(" ++ className hi.matchClass ++ ", priority " ++
      toString hi.priority ++ ") 가 '" ++ lo.key ++ "'(" ++ className lo.matchClass ++
      ", priority " ++ toString lo.priority ++
      ") 보다 먼저 매칭된다. 매치 클래스가 priority 를 이긴다."

/-- The first of two routes on a host has the longer path and the lower priority. -/
def isPathIgnored (first second : CompiledRoute) : Bool :=
  patternKey first.pattern = patternKey second.pattern &&
    pathLength first ≠ pathLength second && first.priority < second.priority

def sortedPair (left right : String) : List String :=
  if Text.before right left then [right, left] else [left, right]

def pathWarning (first second : CompiledRoute) : CompileWarning where
  kind := .pathPriorityIgnored
  routes := sortedPair second.key first.key
  message :=
    "'" ++ first.key ++ "'(" ++ first.pathPrefix ++ ", priority " ++
      toString first.priority ++ ") 가 '" ++ second.key ++ "'(" ++ second.pathPrefix ++
      ", priority " ++ toString second.priority ++
      ") 보다 먼저 매칭된다. 같은 호스트 안에서는 priority 가 아니라 path 길이가 순서를 정한다."

def inversionWarnings (order : List CompiledRoute) : List CompileWarning :=
  order.flatMap fun hi =>
    (order.filter (isInversion hi)).map (inversionWarning hi)

def pathWarnings : List CompiledRoute → List CompileWarning
  | [] => []
  | first :: rest =>
      (rest.filter (isPathIgnored first)).map (pathWarning first) ++ pathWarnings rest

def analyze (order : List CompiledRoute) : List CompileWarning :=
  inversionWarnings order ++ pathWarnings order

/-! ## Compilation -/

def compiledOrder (compiled : List CompiledRoute) : List CompiledRoute :=
  compiled.insertionSort fun left right => routeSortsBefore (hostPriority compiled) left right

def compileHostRoutes (platform : Platform) (routes : List RouteInput) : CompileResult :=
  let compiled := compiledRoutes platform routes
  let errors := invalidHosts platform routes ++
    duplicateErrors [] (compiled.insertionSort fun left right => keySortsBefore left right)
  if 0 < errors.length then ⟨[], [], errors⟩
  else
    let order := compiledOrder compiled
    ⟨order, analyze order, errors⟩

end Route

end Barycenter
