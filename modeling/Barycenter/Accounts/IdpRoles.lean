import Barycenter.Accounts.Tokens
import Barycenter.Foundation.Json
import Mathlib.Algebra.GroupWithZero.Nat
import Mathlib.Data.List.Basic

/-!
# Roles from the identity provider

A provider is configured with the claim that carries roles, a table of roles, and
optionally a claim of entitlements with the prefix of the ones that are meant for
this program and a table of their effects.  The lists come from an ID token or from
a role-change event.  The highest mapped role counts; a prefixed entitlement that
is not in the table refuses, because dropping an unknown denial would open what it
was to close.
-/

namespace Barycenter.Accounts

namespace IdpRoles

/-! ## Configuration -/

/-- `ρ` is `Role`, or a text as long as nobody has checked the configuration. -/
structure ClaimsMapperConfig (ρ : Type) where
  roleClaim : Option String
  roleMap : OrderedMap String ρ
  entitlementClaim : Option String
  entitlementPrefix : String
  entitlementMap : OrderedMap String String

def roleText : Role → String
  | .auditor => "auditor"
  | .operator => "operator"
  | .admin => "admin"

def ClaimsMapperConfig.texts (config : ClaimsMapperConfig Role) : ClaimsMapperConfig String :=
  { config with roleMap := config.roleMap.mapValues roleText }

def claimChar (char : Char) : Bool := letterOrDigit char || ['_', '.', ':', '/', '-'].contains char

def claimText (longest : Nat) (text : String) : Bool :=
  text.toList.all claimChar && decide (1 ≤ text.toList.length ∧ text.toList.length ≤ longest)

/-- `CLAIM_PATH` -/
def CLAIM_PATH (text : String) : Bool := claimText 200 text

/-- `ENTITLEMENT_PREFIX` -/
def ENTITLEMENT_PREFIX (text : String) : Bool := claimText 100 text

def scopeText : Scope → String
  | .read => "read"
  | .write => "write"
  | .apply => "apply"
  | .admin => "admin"

/-- `isScope`, with the scope it is. -/
def scopeOf (text : String) : Option Scope := ALL_SCOPES.find? fun scope => scopeText scope = text

/-- `EFFECT` -/
def isEntitlementEffect (text : String) : Bool :=
  ["grant:", "deny:"].any fun kind => ALL_SCOPES.any fun scope => text = kind ++ scopeText scope

/-- `length` counts code units. -/
def units (text : String) : Nat :=
  (text.toList.map fun char => if char.toNat < 0x10000 then 1 else 2).sum

def nameProblem (key : String) : Bool := key = "" || decide (200 < units key)

def roleEntryProblem (key value : String) : Option String :=
  if nameProblem key then some "역할 매핑의 IdP 값이 비었거나 너무 길다"
  else if value ≠ "auditor" ∧ value ≠ "operator" ∧ value ≠ "admin" then
    some s!"역할 매핑 값은 auditor | operator | admin 이다 ({key} → {value})"
  else none

def entitlementEntryProblem (key value : String) : Option String :=
  if nameProblem key then some "entitlement 표의 이름이 비었거나 너무 길다"
  else if isEntitlementEffect value then none
  else some s!"entitlement 효과는 grant:<범위> 또는 deny:<범위> 다 ({key} → {value})"

def entitlementClaimProblem (config : ClaimsMapperConfig String) : Option String :=
  match config.entitlementClaim with
  | none => none
  | some claim =>
      if !CLAIM_PATH claim then some "entitlement 클레임 이름 모양이 아니다"
      else if !ENTITLEMENT_PREFIX config.entitlementPrefix then
        some "entitlement 를 읽으려면 접두가 필요하다(예 barycenter.) — 접두 없이 읽으면 다른 앱의 entitlement 까지 이 앱의 권한이 된다"
      else none

def claimsConfigProblem (config : ClaimsMapperConfig String) : Option String :=
  if config.roleClaim.any fun claim => !CLAIM_PATH claim then some "역할 클레임 이름 모양이 아니다"
  else
    (entitlementClaimProblem config).or
      ((config.roleMap.entries.findSome? fun (key, value) => roleEntryProblem key value).or
        (config.entitlementMap.entries.findSome? fun (key, value) =>
          entitlementEntryProblem key value))

/-! ## Claims -/

/-- `split('.')` -/
def pathParts (path : String) : List String := (path.toList.splitOn '.').map String.ofList

def readParts : Json → List String → Option Json
  | current, [] => some current
  | current, part :: rest => (current.field? part).bind fun inner => readParts inner rest

/-- The claim of that very name comes before the path through objects. -/
def readClaim (claims : Json) (path : String) : Option Json :=
  (claims.field? path).or (readParts claims (pathParts path))

def textOf : Json → Option String
  | .string value => some value
  | _ => none

def stringList : Json → Option (List String)
  | .string value => some [value]
  | .array elements => elements.mapM textOf
  | _ => none

/-- An absent claim and `null` are the same. -/
def given (claims : Json) (path : String) : Option Json :=
  match readClaim claims path with
  | some .null => none
  | value => value

/-! ## Mapping -/

inductive RoleMapFailure where
  | notConfigured
  | noRoleClaim
  | badClaimShape
  | noMappedRole
  | unknownEntitlement
deriving DecidableEq, Repr

structure Refusal where
  reason : RoleMapFailure
  detail : String
deriving DecidableEq, Repr

structure IdpLists where
  roles : List String
  entitlements : List String

/-- What stands behind `entitlementPrefix`, where the text starts with it. -/
def afterPrefix (start text : String) : Option String :=
  if start.toList.isPrefixOf text.toList then
    some (String.ofList (text.toList.drop start.toList.length))
  else none

def higher (roleMap : OrderedMap String Role) (role : Option Role) (value : String) : Option Role :=
  match roleMap.get? value with
  | none => role
  | some mapped =>
      match role with
      | none => some mapped
      | some known => if roleRank mapped > roleRank known then some mapped else some known

/-- `effect.split(':')`, with whether the scope is granted. -/
def effectOf (effect : String) : Bool × Option Scope :=
  match (effect.toList.splitOn ':').map String.ofList with
  | [kind, scope] => (kind = "grant", scopeOf scope)
  | _ => (false, none)

structure Effects where
  grant : List Scope
  deny : List Scope

def Effects.push (effects : Effects) (granted : Bool) (scope : Scope) : Effects :=
  if granted then { effects with grant := effects.grant ++ [scope] }
  else { effects with deny := effects.deny ++ [scope] }

/-- What one entitlement says; those of other programs say nothing. -/
def reading (config : ClaimsMapperConfig Role) (text : String) :
    Except Refusal (Option (Bool × Scope)) :=
  match afterPrefix config.entitlementPrefix text with
  | none => .ok none
  | some name =>
      match config.entitlementMap.get? name with
      | none => .error ⟨.unknownEntitlement, s!"표에 없는 entitlement: {text}"⟩
      | some effect =>
          match effectOf effect with
          | (_, none) => .error ⟨.unknownEntitlement, s!"표의 효과가 범위가 아니다: {text}"⟩
          | (granted, some scope) => .ok (some (granted, scope))

def readAll (config : ClaimsMapperConfig Role) : Effects → List String → Except Refusal Effects
  | effects, [] => .ok effects
  | effects, text :: later =>
      match reading config text with
      | .error refusal => .error refusal
      | .ok none => readAll config effects later
      | .ok (some (granted, scope)) => readAll config (effects.push granted scope) later

/-- `decide` -/
def decideLists (config : ClaimsMapperConfig Role) (lists : IdpLists) : Except Refusal IdpAuthority :=
  if config.roleMap.keys = [] then
    .error ⟨.notConfigured, "공급자에 역할 매핑이 설정되지 않았다"⟩
  else
    match lists.roles.foldl (higher config.roleMap) none with
    | none =>
        .error ⟨.noMappedRole, s!"매핑에 있는 역할 값이 없다 (받은 값 {lists.roles.length}개)"⟩
    | some role =>
        if config.entitlementClaim.isNone then .ok ⟨role, normScopes [], normScopes []⟩
        else
          match readAll config ⟨[], []⟩ lists.entitlements with
          | .error refusal => .error refusal
          | .ok effects => .ok ⟨role, normScopes effects.grant, normScopes effects.deny⟩

def fromLists (config : ClaimsMapperConfig Role) (lists : IdpLists) :
    Except Refusal IdpAuthority :=
  decideLists config lists

/-- The entitlements that a token carries, none where the claim is not there. -/
def entitlementsOf (config : ClaimsMapperConfig Role) (claims : Json) :
    Except Refusal (List String) :=
  match config.entitlementClaim with
  | none => .ok []
  | some path =>
      match given claims path with
      | none => .ok []
      | some value =>
          match stringList value with
          | none =>
              .error ⟨.badClaimShape, s!"entitlement 클레임({path})이 문자열 · 문자열 배열이 아니다"⟩
          | some entitlements => .ok entitlements

def fromClaims (config : ClaimsMapperConfig Role) (claims : Json) :
    Except Refusal IdpAuthority :=
  match config.roleClaim with
  | none => .error ⟨.notConfigured, "공급자에 역할 클레임 · 매핑이 설정되지 않았다"⟩
  | some path =>
      if config.roleMap.keys = [] then
        .error ⟨.notConfigured, "공급자에 역할 클레임 · 매핑이 설정되지 않았다"⟩
      else
        match given claims path with
        | none => .error ⟨.noRoleClaim, s!"역할 클레임({path})이 없다"⟩
        | some value =>
            match stringList value with
            | none => .error ⟨.badClaimShape, s!"역할 클레임({path})이 문자열 · 문자열 배열이 아니다"⟩
            | some roles =>
                match entitlementsOf config claims with
                | .error refusal => .error refusal
                | .ok entitlements => decideLists config ⟨roles, entitlements⟩

/-! ## The highest role -/

variable {config : ClaimsMapperConfig Role} {lists : IdpLists}

theorem roleRank_injective {first second : Role} (same : roleRank first = roleRank second) :
    first = second := by
  revert same
  cases first <;> cases second <;> simp [roleRank]

variable {roleMap : OrderedMap String Role} {roles : List String}

theorem foldl_higher_none {start : Option Role} :
    roles.foldl (higher roleMap) start = none ↔
      start = none ∧ ∀ value ∈ roles, roleMap.get? value = none := by
  induction roles generalizing start with
  | nil => simp
  | cons value later induction =>
      have step : higher roleMap start value = none ↔ start = none ∧ roleMap.get? value = none := by
        rw [higher]
        cases mapped : roleMap.get? value with
        | none => simp
        | some role =>
            cases start with
            | none => simp
            | some known =>
                simp only
                split <;> simp
      rw [List.foldl_cons, induction, step, List.forall_mem_cons, and_assoc]

theorem foldl_higher_some
    {start : Option Role} {role : Role} (found : roles.foldl (higher roleMap) start = some role) :
    (start = some role ∨ ∃ value ∈ roles, roleMap.get? value = some role) ∧
      (∀ known, start = some known → roleRank known ≤ roleRank role) ∧
      ∀ value ∈ roles, ∀ mapped, roleMap.get? value = some mapped →
        roleRank mapped ≤ roleRank role := by
  induction roles generalizing start with
  | nil =>
      have same : start = some role := found
      subst same
      simp
  | cons value later induction =>
      obtain ⟨source, above, highest⟩ := induction found
      cases mapped : roleMap.get? value with
      | none =>
          have passed : higher roleMap start value = start := by rw [higher, mapped]
          rw [passed] at source above
          refine ⟨source.imp_right ?_, above, ?_⟩
          · rintro ⟨other, member, same⟩
            exact ⟨other, List.mem_cons_of_mem value member, same⟩
          · intro other member role same
            rcases List.mem_cons.mp member with rfl | member
            · rw [mapped] at same
              cases same
            · exact highest other member role same
      | some own =>
          -- Whatever is kept is at least as high as the value and as what was known.
          have kept : ∃ top, higher roleMap start value = some top ∧ roleRank own ≤ roleRank top ∧
              (∀ known, start = some known → roleRank known ≤ roleRank top) ∧
              (top = own ∨ start = some top) := by
            rw [higher, mapped]
            cases start with
            | none => exact ⟨own, rfl, le_refl _, by simp, .inl rfl⟩
            | some known =>
                by_cases more : roleRank own > roleRank known
                · refine ⟨own, if_pos more, le_refl _, ?_, .inl rfl⟩
                  intro other same
                  cases same
                  exact le_of_lt more
                · refine ⟨known, if_neg more, not_lt.mp more, ?_, .inr rfl⟩
                  intro other same
                  cases same
                  exact le_refl _
          obtain ⟨top, result, ownBelow, knownBelow, origin⟩ := kept
          have topBelow := above top result
          refine ⟨?_, fun known same => le_trans (knownBelow known same) topBelow, ?_⟩
          · rcases source with same | ⟨other, member, same⟩
            · rw [result] at same
              cases same
              rcases origin with rfl | before
              · exact .inr ⟨value, List.mem_cons_self, mapped⟩
              · exact .inl before
            · exact .inr ⟨other, List.mem_cons_of_mem value member, same⟩
          · intro other member role same
            rcases List.mem_cons.mp member with rfl | member
            · rw [mapped] at same
              cases same
              exact le_trans ownBelow topBelow
            · exact highest other member role same

def Highest (roleMap : OrderedMap String Role) (roles : List String) (role : Role) : Prop :=
  (∃ value ∈ roles, roleMap.get? value = some role) ∧
    ∀ value ∈ roles, ∀ mapped, roleMap.get? value = some mapped → roleRank mapped ≤ roleRank role

theorem foldl_higher {role : Role} :
    roles.foldl (higher roleMap) none = some role ↔ Highest roleMap roles role := by
  have one : ∀ {top}, roles.foldl (higher roleMap) none = some top → Highest roleMap roles top := by
    intro top found
    obtain ⟨source, -, highest⟩ := foldl_higher_some found
    exact ⟨source.resolve_left (by simp), highest⟩
  constructor
  · exact one
  · rintro ⟨⟨value, member, mapped⟩, highest⟩
    cases found : roles.foldl (higher roleMap) none with
    | none =>
        rw [(foldl_higher_none.mp found).2 value member] at mapped
        cases mapped
    | some top =>
        obtain ⟨⟨other, otherMember, otherMapped⟩, above⟩ := one found
        have same := roleRank_injective
          (le_antisymm (highest other otherMember top otherMapped) (above value member role mapped))
        rw [same]

/-! ## Entitlements -/

variable {texts : List String} {refusal : Refusal}

theorem readAll_error {effects : Effects} (failed : readAll config effects texts = .error refusal) :
    ∃ text ∈ texts, reading config text = .error refusal := by
  induction texts generalizing effects with
  | nil => cases failed
  | cons text later induction =>
      rw [readAll] at failed
      cases read : reading config text with
      | error own =>
          rw [read] at failed
          cases failed
          exact ⟨text, List.mem_cons_self, read⟩
      | ok said =>
          rw [read] at failed
          cases said with
          | none | some pair =>
              obtain ⟨other, member, same⟩ := induction failed
              exact ⟨other, List.mem_cons_of_mem text member, same⟩

theorem readAll_ok {effects : Effects} {result : Effects}
    (done : readAll config effects texts = .ok result) :
    (∀ text ∈ texts, ∃ said, reading config text = .ok said) ∧
      (∀ scope, scope ∈ result.grant ↔ scope ∈ effects.grant ∨
        ∃ text ∈ texts, reading config text = .ok (some (true, scope))) ∧
      ∀ scope, scope ∈ result.deny ↔ scope ∈ effects.deny ∨
        ∃ text ∈ texts, reading config text = .ok (some (false, scope)) := by
  induction texts generalizing effects with
  | nil =>
      cases done
      simp
  | cons text later induction =>
      rw [readAll] at done
      cases read : reading config text with
      | error own =>
          rw [read] at done
          cases done
      | ok said =>
          rw [read] at done
          cases said with
          | none =>
              obtain ⟨known, grant, deny⟩ := induction done
              refine ⟨List.forall_mem_cons.mpr ⟨⟨none, read⟩, known⟩, ?_, ?_⟩
              · simp [grant, read]
              · simp [deny, read]
          | some pair =>
              obtain ⟨granted, scope⟩ := pair
              obtain ⟨known, grant, deny⟩ := induction done
              refine ⟨List.forall_mem_cons.mpr ⟨⟨some (granted, scope), read⟩, known⟩, ?_, ?_⟩
              · intro other
                cases granted <;> simp [grant, read, Effects.push, or_assoc, eq_comm]
              · intro other
                cases granted <;> simp [deny, read, Effects.push, or_assoc, eq_comm]

variable {text : String}

theorem reading_reason (failed : reading config text = .error refusal) :
    refusal.reason = .unknownEntitlement ∧ (afterPrefix config.entitlementPrefix text).isSome := by
  unfold reading at failed
  split at failed
  · cases failed
  · rename_i name started
    refine ⟨?_, by rw [started]; rfl⟩
    split at failed
    · cases failed
      rfl
    · split at failed
      · cases failed
        rfl
      · cases failed

theorem reading_other (other : afterPrefix config.entitlementPrefix text = none) :
    reading config text = .ok none := by
  rw [reading, other]

/-! ## What the result depends on -/

/-- The result without the text that tells a person about a refusal. -/
def outcome (result : Except Refusal IdpAuthority) : Except RoleMapFailure IdpAuthority :=
  result.mapError Refusal.reason

theorem normScopes_congr {first second : List Scope}
    (same : ∀ scope, scope ∈ first ↔ scope ∈ second) : normScopes first = normScopes second := by
  apply List.filter_congr
  intro scope _
  rw [Bool.eq_iff_iff, List.contains_iff_mem, List.contains_iff_mem]
  exact same scope

/-- The lists hold the same mapped roles, and the same entitlements of this program. -/
structure SameRelevant (config : ClaimsMapperConfig Role) (first second : IdpLists) : Prop where
  roles : ∀ value, (config.roleMap.get? value).isSome → (value ∈ first.roles ↔ value ∈ second.roles)
  entitlements : ∀ text, (afterPrefix config.entitlementPrefix text).isSome →
    (text ∈ first.entitlements ↔ text ∈ second.entitlements)

variable {first second : IdpLists}

theorem SameRelevant.symm (same : SameRelevant config first second) :
    SameRelevant config second first where
  roles value mapped := (same.roles value mapped).symm
  entitlements text own := (same.entitlements text own).symm

theorem SameRelevant.highest (same : SameRelevant config first second)
    {role : Role} (top : Highest config.roleMap first.roles role) :
    Highest config.roleMap second.roles role := by
  obtain ⟨⟨value, member, mapped⟩, above⟩ := top
  constructor
  · exact ⟨value, (same.roles value (by rw [mapped]; rfl)).mp member, mapped⟩
  · intro other otherMember role otherMapped
    exact above other ((same.roles other (by rw [otherMapped]; rfl)).mpr otherMember) role otherMapped

theorem SameRelevant.role (same : SameRelevant config first second) :
    first.roles.foldl (higher config.roleMap) none =
      second.roles.foldl (higher config.roleMap) none := by
  cases found : second.roles.foldl (higher config.roleMap) none with
  | some role => exact foldl_higher.mpr (same.symm.highest (foldl_higher.mp found))
  | none =>
      cases other : first.roles.foldl (higher config.roleMap) none with
      | none => rfl
      | some role =>
          rw [foldl_higher.mpr (same.highest (foldl_higher.mp other))] at found
          cases found

theorem SameRelevant.refused (same : SameRelevant config first second)
    (failed : readAll config ⟨[], []⟩ first.entitlements = .error refusal) :
    ∃ other, readAll config ⟨[], []⟩ second.entitlements = .error other := by
  obtain ⟨text, member, unread⟩ := readAll_error failed
  have present := (same.entitlements text (reading_reason unread).2).mp member
  cases done : readAll config ⟨[], []⟩ second.entitlements with
  | error other => exact ⟨other, rfl⟩
  | ok effects =>
      obtain ⟨said, read⟩ := (readAll_ok done).1 text present
      rw [unread] at read
      cases read

theorem SameRelevant.said (same : SameRelevant config first second)
    (pair : Bool × Scope) :
    (∃ text ∈ first.entitlements, reading config text = .ok (some pair)) ↔
      ∃ text ∈ second.entitlements, reading config text = .ok (some pair) := by
  have own : ∀ text, reading config text = .ok (some pair) →
      (afterPrefix config.entitlementPrefix text).isSome := by
    intro text read
    cases started : afterPrefix config.entitlementPrefix text with
    | some name => rfl
    | none =>
        rw [reading_other started] at read
        cases read
  constructor
  · rintro ⟨text, member, read⟩
    exact ⟨text, (same.entitlements text (own text read)).mp member, read⟩
  · rintro ⟨text, member, read⟩
    exact ⟨text, (same.entitlements text (own text read)).mpr member, read⟩

theorem outcome_congr (same : SameRelevant config first second) :
    outcome (decideLists config first) = outcome (decideLists config second) := by
  unfold decideLists
  by_cases unset : config.roleMap.keys = []
  · rw [if_pos unset, if_pos unset]
  · rw [if_neg unset, if_neg unset, same.role]
    cases found : second.roles.foldl (higher config.roleMap) none with
    | none => rfl
    | some role =>
        by_cases unread : config.entitlementClaim.isNone = true
        · simp only [if_pos unread]
        · simp only [if_neg unread]
          cases done : readAll config ⟨[], []⟩ first.entitlements with
          | error refusal =>
              obtain ⟨other, failed⟩ := same.refused done
              obtain ⟨text, -, read⟩ := readAll_error done
              obtain ⟨otherText, -, otherRead⟩ := readAll_error failed
              rw [failed]
              simp only [outcome, Except.mapError, (reading_reason read).1,
                (reading_reason otherRead).1]
          | ok effects =>
              cases otherDone : readAll config ⟨[], []⟩ second.entitlements with
              | error refusal =>
                  obtain ⟨other, failed⟩ := same.symm.refused otherDone
                  rw [done] at failed
                  cases failed
              | ok others =>
                  obtain ⟨-, grant, deny⟩ := readAll_ok done
                  obtain ⟨-, otherGrant, otherDeny⟩ := readAll_ok otherDone
                  have grants : normScopes effects.grant = normScopes others.grant := by
                    apply normScopes_congr
                    intro scope
                    rw [grant, otherGrant, same.said]
                  have denials : normScopes effects.deny = normScopes others.deny := by
                    apply normScopes_congr
                    intro scope
                    rw [deny, otherDeny, same.said]
                  simp only [grants, denials]

/-! ## Accepted configurations -/

/-- A prefixed entitlement and its effect in the table. -/
def Mapped (config : ClaimsMapperConfig Role) (text effect : String) : Prop :=
  ∃ name, afterPrefix config.entitlementPrefix text = some name ∧
    config.entitlementMap.get? name = some effect

def Unmapped (config : ClaimsMapperConfig Role) (text : String) : Prop :=
  ∃ name, afterPrefix config.entitlementPrefix text = some name ∧
    config.entitlementMap.get? name = none

variable {effect : String}

theorem effectOf_effect (shaped : isEntitlementEffect effect = true) :
    ∃ granted scope, effectOf effect = (granted, some scope) := by
  have known : ∀ kind ∈ ["grant:", "deny:"], ∀ scope ∈ ALL_SCOPES,
      ∃ granted, effectOf (kind ++ scopeText scope) = (granted, some scope) := by decide
  simp only [isEntitlementEffect, List.any_eq_true, decide_eq_true_iff] at shaped
  obtain ⟨kind, kindMember, scope, scopeMember, same⟩ := shaped
  obtain ⟨granted, read⟩ := known kind kindMember scope scopeMember
  exact ⟨granted, scope, same ▸ read⟩

theorem effectOf_deny (scope : Scope) : effectOf ("deny:" ++ scopeText scope) = (false, some scope) := by
  cases scope <;> decide

theorem shaped_of_accepted (accepted : claimsConfigProblem config.texts = none) {name : String}
    (mapped : config.entitlementMap.get? name = some effect) : isEntitlementEffect effect = true := by
  have entry := OrderedMap.mem_entries_iff.mpr mapped
  unfold claimsConfigProblem at accepted
  split at accepted
  · cases accepted
  · obtain ⟨-, -, later⟩ := by simpa only [Option.or_eq_none_iff] using accepted
    have fine := List.findSome?_eq_none_iff.mp later (name, effect) entry
    simp only [entitlementEntryProblem] at fine
    split at fine
    · cases fine
    · split at fine
      · assumption
      · cases fine

theorem reading_mapped {granted : Bool} {scope : Scope}
    (mapped : Mapped config text effect) (read : effectOf effect = (granted, some scope)) :
    reading config text = .ok (some (granted, scope)) := by
  obtain ⟨name, started, found⟩ := mapped
  simp only [reading, started, found, read]

theorem reading_unmapped (unmapped : Unmapped config text) :
    ∃ refusal, reading config text = .error refusal := by
  obtain ⟨name, started, absent⟩ := unmapped
  exact ⟨_, by simp only [reading, started, absent]; rfl⟩

/-- With an accepted table an entitlement is refused exactly when it is not in there. -/
theorem reading_error (accepted : claimsConfigProblem config.texts = none)
    (failed : reading config text = .error refusal) : Unmapped config text := by
  cases started : afterPrefix config.entitlementPrefix text with
  | none =>
      rw [reading_other started] at failed
      cases failed
  | some name =>
      cases found : config.entitlementMap.get? name with
      | none => exact ⟨name, started, found⟩
      | some effect =>
          obtain ⟨granted, scope, read⟩ := effectOf_effect (shaped_of_accepted accepted found)
          rw [reading_mapped ⟨name, started, found⟩ read] at failed
          cases failed

theorem keys_ne_nil {value : String} {role : Role} (mapped : config.roleMap.get? value = some role) :
    config.roleMap.keys ≠ [] := by
  intro none
  have member := OrderedMap.mem_keys_iff.mpr ⟨role, mapped⟩
  rw [none] at member
  exact List.not_mem_nil member

theorem decideLists_ok {authority : IdpAuthority} (done : decideLists config lists = .ok authority) :
    Highest config.roleMap lists.roles authority.role ∧
      (config.entitlementClaim.isSome →
        (∀ text ∈ lists.entitlements, ∃ said, reading config text = .ok said) ∧
        ∀ scope, scope ∈ authority.deny ↔
          ∃ text ∈ lists.entitlements, reading config text = .ok (some (false, scope))) := by
  unfold decideLists at done
  split at done
  · cases done
  · split at done
    · cases done
    · rename_i role found
      split at done
      · rename_i unread
        cases done
        refine ⟨foldl_higher.mp found, ?_⟩
        intro configured
        rw [Option.isNone_iff_eq_none] at unread
        rw [unread] at configured
        cases configured
      · split at done
        · cases done
        · rename_i effects readDone
          cases done
          obtain ⟨known, -, deny⟩ := readAll_ok readDone
          refine ⟨foldl_higher.mp found, fun _ => ⟨known, ?_⟩⟩
          intro scope
          simp [deny]

/-- The lists are turned down exactly when no role is mapped or an entitlement of this
program is not in the table. -/
theorem decideLists_accepts (accepted : claimsConfigProblem config.texts = none) :
    (∃ authority, decideLists config lists = .ok authority) ↔
      (∃ value ∈ lists.roles, (config.roleMap.get? value).isSome) ∧
        (config.entitlementClaim.isSome → ∀ text ∈ lists.entitlements, ¬ Unmapped config text) := by
  constructor
  · rintro ⟨authority, done⟩
    obtain ⟨⟨⟨value, member, mapped⟩, -⟩, read⟩ := decideLists_ok done
    refine ⟨⟨value, member, by rw [mapped]; rfl⟩, ?_⟩
    intro configured text textMember unmapped
    obtain ⟨said, fine⟩ := (read configured).1 text textMember
    obtain ⟨refusal, failed⟩ := reading_unmapped unmapped
    rw [failed] at fine
    cases fine
  · rintro ⟨⟨value, member, mapped⟩, known⟩
    obtain ⟨role, own⟩ := Option.isSome_iff_exists.mp mapped
    unfold decideLists
    rw [if_neg (keys_ne_nil own)]
    cases found : lists.roles.foldl (higher config.roleMap) none with
    | none =>
        rw [(foldl_higher_none.mp found).2 value member] at own
        cases own
    | some top =>
        by_cases unread : config.entitlementClaim.isNone = true
        · exact ⟨_, if_pos unread⟩
        · simp only [if_neg unread]
          cases done : readAll config ⟨[], []⟩ lists.entitlements with
          | ok effects => exact ⟨_, rfl⟩
          | error refusal =>
              obtain ⟨text, textMember, failed⟩ := readAll_error done
              have configured : config.entitlementClaim.isSome = true := by
                cases claim : config.entitlementClaim with
                | none =>
                    rw [claim] at unread
                    exact absurd rfl unread
                | some path => rfl
              exact absurd (reading_error accepted failed) (known configured text textMember)

/-! ## Tokens -/

/-- The value stands at the end of the path through objects. -/
inductive Nested : Json → List String → Json → Prop where
  | here (value : Json) : Nested value [] value
  | inside {outer inner value : Json} {part : String} {rest : List String}
      (field : outer.field? part = some inner) (later : Nested inner rest value) :
      Nested outer (part :: rest) value

/-- The token carries the value at the path: as a claim of that name, or where there is
none, through objects. -/
inductive At (claims : Json) (path : String) (value : Json) : Prop where
  | named (claim : claims.field? path = some value)
  | nested (absent : claims.field? path = none) (inside : Nested claims (pathParts path) value)

variable {value : Json}

theorem readParts_iff {current : Json} {parts : List String} :
    readParts current parts = some value ↔ Nested current parts value := by
  induction parts generalizing current with
  | nil =>
      constructor
      · intro same
        cases same
        exact .here _
      · intro nested
        cases nested
        rfl
  | cons part rest induction =>
      rw [readParts, Option.bind_eq_some_iff]
      constructor
      · rintro ⟨inner, field, later⟩
        exact .inside field (induction.mp later)
      · intro nested
        cases nested with
        | inside field later => exact ⟨_, field, induction.mpr later⟩

variable {claims : Json} {path : String}

theorem readClaim_iff :
    readClaim claims path = some value ↔ At claims path value := by
  unfold readClaim
  cases claim : claims.field? path with
  | some own =>
      rw [Option.some_or]
      constructor
      · rintro same
        cases same
        exact .named claim
      · intro carried
        cases carried with
        | named other => rw [← claim, other]
        | nested absent =>
            rw [claim] at absent
            cases absent
  | none =>
      rw [Option.none_or, readParts_iff]
      constructor
      · exact .nested claim
      · intro carried
        cases carried with
        | named other =>
            rw [claim] at other
            cases other
        | nested absent inside => exact inside

inductive Spells : Json → List String → Prop where
  | array (texts : List String) : Spells (.array (texts.map Json.string)) texts
  | single (text : String) : Spells (.string text) [text]

theorem stringList_spells (spells : Spells value texts) :
    stringList value = some texts := by
  cases spells with
  | single text => rfl
  | array =>
      rw [stringList]
      induction texts with
      | nil => rfl
      | cons text later induction => simp [textOf, induction]

theorem given_spells (carried : At claims path value) (spells : Spells value texts) :
    given claims path = some value := by
  rw [given, readClaim_iff.mpr carried]
  cases spells <;> rfl

/-- The token carries the lists at the configured paths; an empty list of entitlements
may be left out. -/
structure Carries (config : ClaimsMapperConfig Role) (claims : Json) (lists : IdpLists) : Prop where
  roles : ∃ path value, config.roleClaim = some path ∧ At claims path value ∧ Spells value lists.roles
  entitlements : ∀ path, config.entitlementClaim = some path →
    (∃ value, At claims path value ∧ Spells value lists.entitlements) ∨
      lists.entitlements = [] ∧ ∀ value, At claims path value → value = .null

theorem entitlementsOf_carries (carries : Carries config claims lists)
    (configured : config.entitlementClaim = some path) :
    entitlementsOf config claims = .ok lists.entitlements := by
  simp only [entitlementsOf, configured]
  rcases carries.entitlements path configured with ⟨value, carried, spells⟩ | ⟨empty, absent⟩
  · simp only [given_spells carried spells, stringList_spells spells]
  · have nothing : given claims path = none := by
      rw [given]
      cases read : readClaim claims path with
      | none => rfl
      | some value =>
          rw [absent value (readClaim_iff.mp read)]
    rw [nothing, empty]

theorem fromClaims_carries (carries : Carries config claims lists) :
    outcome (fromClaims config claims) = outcome (fromLists config lists) := by
  obtain ⟨path, value, configured, carried, spells⟩ := carries.roles
  simp only [fromClaims, configured, fromLists]
  by_cases unset : config.roleMap.keys = []
  · rw [if_pos unset, decideLists, if_pos unset]
    rfl
  · simp only [if_neg unset, given_spells carried spells, stringList_spells spells]
    cases claim : config.entitlementClaim with
    | none =>
        -- The entitlements are not looked at.
        simp only [entitlementsOf, claim]
        simp only [decideLists, claim, Option.isNone_none, if_true]
    | some entitlementPath => rw [entitlementsOf_carries carries claim]

theorem sameRelevant_of_mem (roles : ∀ value, value ∈ first.roles ↔ value ∈ second.roles)
    (entitlements : ∀ text, text ∈ first.entitlements ↔ text ∈ second.entitlements) :
    SameRelevant config first second where
  roles value _ := roles value
  entitlements text _ := entitlements text

def IdpLists.with (lists more : IdpLists) : IdpLists :=
  ⟨lists.roles ++ more.roles, lists.entitlements ++ more.entitlements⟩

theorem sameRelevant_with {more : IdpLists}
    (roles : ∀ value ∈ more.roles, config.roleMap.get? value = none)
    (entitlements : ∀ text ∈ more.entitlements, afterPrefix config.entitlementPrefix text = none) :
    SameRelevant config (lists.with more) lists where
  roles value mapped := by
    rw [IdpLists.with, List.mem_append, or_iff_left]
    intro member
    rw [roles value member] at mapped
    cases mapped
  entitlements text own := by
    rw [IdpLists.with, List.mem_append, or_iff_left]
    intro member
    rw [entitlements text member] at own
    cases own

def Denied (config : ClaimsMapperConfig Role) (lists : IdpLists) (scope : Scope) : Prop :=
  config.entitlementClaim.isSome ∧
    ∃ text ∈ lists.entitlements, Mapped config text ("deny:" ++ scopeText scope)

theorem denied_of_decideLists {authority : IdpAuthority}
    (done : decideLists config lists = .ok authority) {scope : Scope}
    (denied : Denied config lists scope) : scope ∈ authority.deny := by
  obtain ⟨configured, text, member, mapped⟩ := denied
  obtain ⟨-, deny⟩ := (decideLists_ok done).2 configured
  exact (deny scope).mpr ⟨text, member, reading_mapped mapped (effectOf_deny scope)⟩

/-- With an accepted configuration the lists give the highest mapped role and never a
denied scope, what is not about this program changes nothing, and a token gives what its
lists give. -/
theorem mapping_fails_closed (config : ClaimsMapperConfig Role)
    (accepted : claimsConfigProblem config.texts = none) :
    (∀ first second : IdpLists, (∀ value, value ∈ first.roles ↔ value ∈ second.roles) →
        (∀ text, text ∈ first.entitlements ↔ text ∈ second.entitlements) →
        outcome (fromLists config first) = outcome (fromLists config second)) ∧
      (∀ lists authority, fromLists config lists = .ok authority →
        Highest config.roleMap lists.roles authority.role ∧
          ∀ scope, scope ∈ authority.deny ∨ Denied config lists scope →
            scope ∉ scopesOfAuthority authority) ∧
      (∀ lists, (∃ authority, fromLists config lists = .ok authority) ↔
        (∃ value ∈ lists.roles, (config.roleMap.get? value).isSome) ∧
          (config.entitlementClaim.isSome → ∀ text ∈ lists.entitlements, ¬ Unmapped config text)) ∧
      (∀ lists more : IdpLists, (∀ value ∈ more.roles, config.roleMap.get? value = none) →
        (∀ text ∈ more.entitlements, afterPrefix config.entitlementPrefix text = none) →
        outcome (fromLists config (lists.with more)) = outcome (fromLists config lists)) ∧
      (∀ claims lists, Carries config claims lists →
        outcome (fromClaims config claims) = outcome (fromLists config lists)) ∧
      (config.roleClaim = none → ∀ claims,
        outcome (fromClaims config claims) = .error .notConfigured) ∧
      (config.roleMap.keys = [] →
        (∀ claims, outcome (fromClaims config claims) = .error .notConfigured) ∧
          ∀ lists, outcome (fromLists config lists) = .error .notConfigured) := by
  refine ⟨?_, ?_, ?_, ?_, ?_, ?_, ?_⟩
  · intro first second roles entitlements
    exact outcome_congr (sameRelevant_of_mem roles entitlements)
  · intro lists authority done
    refine ⟨(decideLists_ok done).1, ?_⟩
    intro scope denied effective
    have listed : scope ∈ authority.deny := denied.elim id (denied_of_decideLists done)
    exact (mem_effectiveScopes.mp effective).2 listed
  · intro lists
    exact decideLists_accepts accepted
  · intro lists more roles entitlements
    exact outcome_congr (sameRelevant_with roles entitlements)
  · intro claims lists carries
    exact fromClaims_carries carries
  · intro unset claims
    rw [fromClaims, unset]
    rfl
  · intro unset
    constructor
    · intro claims
      cases claim : config.roleClaim with
      | none =>
          rw [fromClaims, claim]
          rfl
      | some path =>
          simp only [fromClaims, claim, if_pos unset]
          rfl
    · intro lists
      rw [fromLists, decideLists, if_pos unset]
      rfl

/-! ## A configured provider -/

def lodestar : ClaimsMapperConfig Role where
  roleClaim := some "roles"
  roleMap := .fromEntries [("admins", .admin), ("operators", .operator)]
  entitlementClaim := some "entitlements"
  entitlementPrefix := "barycenter."
  entitlementMap := .fromEntries [("apply", "grant:apply"), ("no_apply", "deny:apply")]

theorem lodestar_fails_closed :
    outcome (fromLists lodestar ⟨["operators", "admins"], ["barycenter.no_apply", "plan.approve"]⟩) =
      outcome (fromLists lodestar
        ⟨["admins", "operators", "admins"], ["plan.approve", "barycenter.no_apply"]⟩) := by
  have closed := mapping_fails_closed lodestar (by decide +kernel)
  refine closed.1 _ _ ?_ ?_
  · intro value
    simp [or_comm]
  · intro text
    simp [or_comm]

/-- Without a claim of entitlements none is read, and what a person is told about a
refusal counts the roles that came. -/
theorem unread_and_counted :
    (∃ (config : ClaimsMapperConfig Role) (lists : IdpLists),
      claimsConfigProblem config.texts = none ∧
        (∃ text ∈ lists.entitlements, Unmapped config text) ∧
        fromLists config lists = .ok ⟨.operator, [], []⟩) ∧
      fromLists lodestar ⟨["guests"], []⟩ ≠ fromLists lodestar ⟨["guests", "guests"], []⟩ := by
  constructor
  · refine ⟨{ lodestar with entitlementClaim := none },
      ⟨["operators"], ["barycenter.whatever"]⟩, by decide +kernel, ?_, by decide +kernel⟩
    exact ⟨"barycenter.whatever", by simp, "whatever", by decide +kernel, by decide +kernel⟩
  · decide +kernel

end IdpRoles

end Barycenter.Accounts
