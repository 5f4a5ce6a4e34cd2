import Barycenter.Store.Patch
import Mathlib.Data.List.DropRight

/-!
# Patches that edit one resource

Two commands change one field of a resource that is there already: the hosts of
a listener, and where a pool finds its backends.  A put replaces the whole
resource, so the body of the put is the resource that was read, with the field
replaced.  Taking the hosts or the discovery away leaves the field out.
-/

namespace Barycenter

namespace Cli

open Config Store

/-! ## Texts -/

/-- The characters that `trim` takes off both ends. -/
def isBlank (character : Char) : Bool :=
  let code := character.toNat
  decide (9 ≤ code ∧ code ≤ 13) || decide (0x2000 ≤ code ∧ code ≤ 0x200a) ||
    [0x20, 0xa0, 0x1680, 0x2028, 0x2029, 0x202f, 0x205f, 0x3000, 0xfeff].contains code

def trim (text : String) : String :=
  String.ofList (((text.toList.dropWhile isBlank).reverse.dropWhile isBlank).reverse)

theorem trim_toList (text : String) :
    (trim text).toList = (text.toList.dropWhile isBlank).rdropWhile isBlank := by
  simp [trim, List.rdropWhile]

theorem dropWhile_rdropWhile {text : List Char} {blank : Char → Bool}
    (started : text.dropWhile blank = text) :
    (text.rdropWhile blank).dropWhile blank = text.rdropWhile blank := by
  obtain ⟨ending, split⟩ := List.rdropWhile_prefix blank text
  cases kept : text.rdropWhile blank with
  | nil => rfl
  | cons first rest =>
      rw [kept] at split
      subst split
      have visible : ¬ blank first = true := by
        intro gone
        rw [List.cons_append, List.dropWhile_cons_of_pos gone] at started
        have shorter := (List.dropWhile_sublist blank (l := rest ++ ending)).length_le
        rw [started] at shorter
        simp only [List.length_cons, List.length_append] at shorter
        omega
      exact List.dropWhile_cons_of_neg visible

@[simp] theorem trim_trim (text : String) : trim (trim text) = trim text := by
  apply String.toList_inj.mp
  rw [trim_toList (trim text), trim_toList text,
    dropWhile_rdropWhile (List.dropWhile_idempotent isBlank text.toList),
    List.rdropWhile_idempotent]

/-- The number that digits spell, `/^\d+$/`. -/
def digits (text : String) : Option Nat :=
  if text ≠ "" ∧ text.toList.all Char.isDigit then
    some (text.toList.foldl (fun value digit => 10 * value + (digit.toNat - 48)) 0)
  else none

/-! ## Listeners -/

def protocolText : ListenerBody → String
  | .http _ => "http"
  | .https _ => "https"
  | .tlsPassthrough _ => "tls_passthrough"
  | .tcp _ => "tcp"
  | .udp _ => "udp"

def listField {α : Type} (items : List α) : Option (List α) :=
  if items = [] then none else some items

structure ListenerEdit where
  bind : String
  port : Nat
  enabled : Bool
  sourceAllow : Option (List String) := none
  defaultAction : Option SniOutcome := none
  hosts : Option (List String) := none
  /-- Nothing inside takes the redirection away. -/
  httpRedirect : Option (Option Nat) := none
deriving DecidableEq, Repr

def editHosts (hosts : List String) : ListenerBody → Except String ListenerBody
  | .http body => .ok (.http { body with hosts := listField hosts })
  | .https body => .ok (.https { body with hosts := listField hosts })
  | other => .error s!"{protocolText other} 리스너에는 호스트가 없다 — 포트로만 가른다"

def checkRedirectPort (port httpsPort : Nat) : Except String Unit :=
  if port < 1 ∨ 65535 < port then .error "리다이렉트 포트가 1–65535 정수가 아니다"
  else if port = httpsPort then
    .error "리다이렉트 포트가 HTTPS 포트와 같다 — 한 포트에 평문과 TLS 를 함께 못 연다"
  else .ok ()

def editRedirect (redirect : Option Nat) (httpsPort : Nat) :
    ListenerBody → Except String ListenerBody
  | .https body => do
      redirect.forM fun port => checkRedirectPort port httpsPort
      return .https { body with httpRedirect := redirect }
  | other =>
      .error s!"{protocolText other} 리스너에는 HTTP 리다이렉트가 없다 — HTTPS 리스너만 평문을 HTTPS 로 보낸다"

def withDefaultAction (profile : Option HttpProfile) (action : SniOutcome) : HttpProfile :=
  { profile.getD {} with defaultAction := some action }

def editDefaultAction (action : SniOutcome) (body : ListenerBody) :
    Except String ListenerBody :=
  match action, body with
  | .pool "", _ => .error "풀이 비어 있다"
  | _, .http body => .ok (.http { body with http := some (withDefaultAction body.http action) })
  | _, .https body =>
      .ok (.https { body with http := some (withDefaultAction body.http action) })
  | .pool key, .tcp body => .ok (.tcp { body with defaultPool := key })
  | .pool key, .udp body => .ok (.udp { body with defaultPool := key })
  | _, .tlsPassthrough body =>
      .error s!"{protocolText (.tlsPassthrough body)} 리스너는 기본 풀을 여기서 못 고친다"
  | .reject, other =>
      .error s!"{protocolText other} 리스너는 거절을 기본 동작으로 못 둔다 — 풀이 필요하다"

def refuseWhen (broken : Prop) [Decidable broken] (message : String) : Except String Unit :=
  if broken then .error message else .ok ()

def edited {α : Type} (edit : Option α) (change : α → ListenerBody → Except String ListenerBody)
    (body : ListenerBody) : Except String ListenerBody :=
  match edit with
  | none => .ok body
  | some edit => change edit body

def editListenerPatch (current : Listener) (edit : ListenerEdit) :
    Except String (List PatchOp) := do
  refuseWhen (current.key = "") "키가 비어 있다"
  refuseWhen (trim edit.bind = "") "바인드가 비어 있다"
  refuseWhen (edit.port < 1 ∨ 65535 < edit.port) "포트가 1–65535 정수가 아니다"
  let body ← edited edit.hosts editHosts current.body
  let body ← edited edit.httpRedirect (fun redirect => editRedirect redirect edit.port) body
  let body ← edited edit.defaultAction editDefaultAction body
  return [.put (.listener
    { key := current.key
      bind := trim edit.bind
      port := edit.port
      enabled := edit.enabled
      sourceAllow := edit.sourceAllow.bind listField
      body := body })]

/-- Everything but the hosts is carried along as it was read. -/
def listenerUpdatePatch (current : Listener) (hosts : List String) :
    Except String (List PatchOp) :=
  editListenerPatch current
    { bind := current.bind
      port := current.port
      enabled := current.enabled
      sourceAllow := current.sourceAllow
      hosts := some hosts }

/-! ## Pools -/

/-- The fields of the form.  A form without a source means the static backends;
an empty text is one that was not given. -/
structure DiscoveryForm where
  source : Option DiscoverySourceKind
  query : String
  port : String
  emptyMeans : EmptyMeans
deriving DecidableEq, Repr

def queryLabel : DiscoverySourceKind → String
  | .dnsSrv => "SRV 이름"
  | .consul => "서비스 이름"
  | .kubernetes => "네임스페이스/서비스"
  | .file => "파일 이름"

/-- `/^[^/]+\/[^/]+$/` -/
def isServiceName (query : String) : Bool :=
  match query.splitOn "/" with
  | [space, service] => !space.isEmpty && !service.isEmpty
  | _ => false

/-- `/[/\\]|^\./` -/
def leavesDirectory (query : String) : Bool :=
  query.toList.any (fun character => decide (character = '/' ∨ character = '\\')) ||
    decide (query.toList.head? = some '.')

def isPort (text : String) : Bool :=
  (digits text).any fun port => decide (1 ≤ port ∧ port ≤ 65535)

def discoveryIssue (form : DiscoveryForm) : Option String :=
  match form.source with
  | none => none
  | some source =>
      let query := trim form.query
      let port := trim form.port
      if query = "" then some s!"{queryLabel source}을 입력해요."
      else if source = .kubernetes ∧ ¬ isServiceName query then
        some "「네임스페이스/서비스」 모양으로 입력해요. 예: prod/api"
      else if source = .file ∧ leavesDirectory query then
        some "파일 이름만 입력해요. 디렉터리는 데몬 설정(BARY_DISCOVERY_FILE_DIR)이 정해요."
      else if port ≠ "" ∧ ¬ isPort port then some "포트는 1~65535 사이 숫자예요."
      else none

/-- What an empty answer means is left out when it means the usual thing. -/
def discoveryOf (form : DiscoveryForm) : Except String (Option PoolDiscovery) :=
  match form.source, discoveryIssue form with
  | none, _ => .ok none
  | some _, some issue => .error issue
  | some source, none =>
      .ok (some
        { source := source
          query := trim form.query
          port := digits (trim form.port)
          emptyMeans := if form.emptyMeans = .empty then some .empty else none })

def poolBodyWithDiscovery (pool : Pool) (form : DiscoveryForm) : Except String Pool := do
  let discovery ← discoveryOf form
  return { pool with discovery := discovery }

/-! ## Requests -/

inductive EditRequest where
  | hosts (name : String) (hosts : List String)
  | discovery (name : String) (form : DiscoveryForm)
deriving DecidableEq, Repr

/-- The patch of a request over the model that was read. -/
def editPatch (request : EditRequest) (model : Model) : Except String (List PatchOp) :=
  match request with
  | .hosts name hosts =>
      if name = "" then .error "리스너 키가 비어 있다"
      else
        match model.listeners.find? fun listener => decide (listener.key = name) with
        | none => .error s!"리스너 '{name}' 가 head 에 없다"
        | some current => listenerUpdatePatch current hosts
  | .discovery name form =>
      match model.pools.find? fun pool => decide (pool.key = name) with
      | none => .error s!"풀 '{name}' 가 없다"
      | some pool => (poolBodyWithDiscovery pool form).map fun body => [.put (.pool body)]

/-! ## The edited field -/

/-- The listener with other hosts; only HTTP and HTTPS have any. -/
def withHosts (hosts : List String) (listener : Listener) : Listener :=
  match listener.body with
  | .http body => { listener with body := .http { body with hosts := listField hosts } }
  | .https body => { listener with body := .https { body with hosts := listField hosts } }
  | _ => listener

def withDiscovery (discovery : Option PoolDiscovery) (pool : Pool) : Pool :=
  { pool with discovery := discovery }

/-- The model in which one field of one resource has been replaced. -/
def editedModel (request : EditRequest) (model : Model) : Model :=
  match request with
  | .hosts name hosts =>
      { model with
        listeners := model.listeners.map fun listener =>
          if listener.key = name then withHosts hosts listener else listener }
  | .discovery name form =>
      { model with
        pools := model.pools.map fun pool =>
          if pool.key = name then withDiscovery ((discoveryOf form).toOption.join) pool
          else pool }

/-- The resource of the patch agrees in all other fields with the one that the
model has under the name. -/
def AgreesElsewhere (request : EditRequest) (patch : List PatchOp) (model : Model) : Prop :=
  match request, patch with
  | .hosts name _, [.put (.listener put)] =>
      ∃ held ∈ model.listeners, held.key = name ∧ withHosts [] put = withHosts [] held
  | .discovery name _, [.put (.pool put)] =>
      ∃ held ∈ model.pools, held.key = name ∧ withDiscovery none put = withDiscovery none held
  | _, _ => False

instance (request : EditRequest) (patch : List PatchOp) (model : Model) :
    Decidable (AgreesElsewhere request patch model) := by
  unfold AgreesElsewhere
  split <;> infer_instance

theorem withHosts_withHosts (first second : List String) (listener : Listener) :
    withHosts second (withHosts first listener) = withHosts second listener := by
  obtain ⟨key, bind, port, enabled, sourceAllow, body⟩ := listener
  cases body <;> rfl

theorem withDiscovery_withDiscovery (first second : Option PoolDiscovery) (pool : Pool) :
    withDiscovery second (withDiscovery first pool) = withDiscovery second pool := rfl

end Cli

end Barycenter
