import Mathlib.Data.List.Basic

/-!
# What an account may do

An account has a role, and scopes that the identity provider grants or denies on
top of it; a denial wins.  The account statements in SQL decide on the stored
columns whether a row is an administrator's, the service on the effective
scopes, and the two agree.
-/

namespace Barycenter.Accounts

inductive Role where
  | auditor
  | operator
  | admin
deriving DecidableEq, Repr

inductive Scope where
  | read
  | write
  | apply
  | admin
deriving DecidableEq, Repr

def ALL_SCOPES : List Scope := [.read, .write, .apply, .admin]

def scopesOfRole : Role → List Scope
  | .auditor => [.read]
  | .operator => [.read, .write]
  | .admin => [.read, .write, .apply, .admin]

def normScopes (scopes : List Scope) : List Scope :=
  ALL_SCOPES.filter fun scope => scopes.contains scope

def effectiveScopes (role : Role) (grant deny : List Scope) : List Scope :=
  normScopes ((scopesOfRole role ++ grant).filter fun scope => !deny.contains scope)

structure IdpAuthority where
  role : Role
  grant : List Scope
  deny : List Scope
deriving DecidableEq, Repr

def scopesOfAuthority (authority : IdpAuthority) : List Scope :=
  effectiveScopes authority.role authority.grant authority.deny

def sameAuthority (first second : IdpAuthority) : Bool := decide (first = second)

@[simp] theorem mem_normScopes {scope : Scope} {scopes : List Scope} :
    scope ∈ normScopes scopes ↔ scope ∈ scopes := by
  cases scope <;> simp [normScopes, ALL_SCOPES]

theorem mem_effectiveScopes {scope : Scope} {role : Role} {grant deny : List Scope} :
    scope ∈ effectiveScopes role grant deny ↔
      (scope ∈ scopesOfRole role ∨ scope ∈ grant) ∧ scope ∉ deny := by
  simp [effectiveScopes, or_and_right]

theorem admin_mem_scopesOfRole {role : Role} :
    Scope.admin ∈ scopesOfRole role ↔ role = .admin := by
  cases role <;> simp [scopesOfRole]

/-! ## Rows -/

inductive Status where
  | active
  | suspended
  | deleted
deriving DecidableEq, Repr

/-- Who decides the authority of an account by its own column. -/
inductive RoleAuthority where
  | localRole
  | idp
deriving DecidableEq, Repr

/-- The columns of `users` that decide what the account may do. -/
structure UserRow where
  role : Role
  idpGrant : List Scope
  idpDeny : List Scope
  status : Status
  roleAuthority : RoleAuthority
deriving DecidableEq, Repr

def authorityOfRow (row : UserRow) : IdpAuthority :=
  { role := row.role, grant := normScopes row.idpGrant, deny := normScopes row.idpDeny }

/-- The condition `ADMIN_SQL` on a row. -/
def ADMIN_SQL (row : UserRow) : Bool :=
  (row.role == .admin || row.idpGrant.contains .admin) && !row.idpDeny.contains .admin

def UserRow.activeAdmin (row : UserRow) : Bool := ADMIN_SQL row && row.status == .active

def IdpAuthority.isAdmin (authority : IdpAuthority) : Bool :=
  (scopesOfAuthority authority).contains .admin

theorem IdpAuthority.isAdmin_iff {authority : IdpAuthority} :
    authority.isAdmin = true ↔
      (authority.role = .admin ∨ Scope.admin ∈ authority.grant) ∧
        Scope.admin ∉ authority.deny := by
  simp [IdpAuthority.isAdmin, scopesOfAuthority, mem_effectiveScopes, admin_mem_scopesOfRole]

theorem ADMIN_SQL_iff {row : UserRow} :
    ADMIN_SQL row = true ↔
      (row.role = .admin ∨ Scope.admin ∈ row.idpGrant) ∧ Scope.admin ∉ row.idpDeny := by
  simp [ADMIN_SQL]

theorem isAdmin_authorityOfRow (row : UserRow) :
    (authorityOfRow row).isAdmin = ADMIN_SQL row := by
  rw [Bool.eq_iff_iff, IdpAuthority.isAdmin_iff, ADMIN_SQL_iff]
  simp [authorityOfRow]

def UserRow.withAuthority (row : UserRow) (authority : IdpAuthority) : UserRow :=
  { row with
    role := authority.role, idpGrant := authority.grant, idpDeny := authority.deny }

@[simp] theorem UserRow.withAuthority_status (row : UserRow) (authority : IdpAuthority) :
    (row.withAuthority authority).status = row.status := rfl

@[simp] theorem UserRow.withAuthority_roleAuthority (row : UserRow) (authority : IdpAuthority) :
    (row.withAuthority authority).roleAuthority = row.roleAuthority := rfl

theorem ADMIN_SQL_withAuthority (row : UserRow) (authority : IdpAuthority) :
    ADMIN_SQL (row.withAuthority authority) = authority.isAdmin := by
  rw [Bool.eq_iff_iff, IdpAuthority.isAdmin_iff, ADMIN_SQL_iff]
  simp [UserRow.withAuthority]

/-- A row on which the identity provider's additions are cleared. -/
def UserRow.cleared (row : UserRow) : UserRow :=
  { row with idpGrant := [], idpDeny := [] }

theorem ADMIN_SQL_cleared (row : UserRow) : ADMIN_SQL row.cleared = (row.role == .admin) := by
  simp [ADMIN_SQL, UserRow.cleared]

/-! ## Changing the authority -/

/-- What the identity provider's word does to a row: refused with the reason, or
the authority that now holds and the row. -/
def applyIdp (row : UserRow) (next : IdpAuthority) (hasFactor : Bool) (others : Nat) :
    Except String (IdpAuthority × UserRow) :=
  let current := authorityOfRow row
  if sameAuthority current next then .ok (current, row)
  else if next.isAdmin && !current.isAdmin && !hasFactor then
    .error "관리자 범위를 주려면 둘째 인증(인증 앱 또는 IdP OTP)이 먼저 있어야 한다"
  else if current.isAdmin && !next.isAdmin && row.status == .active && others == 0 then
    .error "마지막 활성 관리자의 관리자 범위를 빼려 했다"
  else .ok (next, row.withAuthority next)

end Barycenter.Accounts
