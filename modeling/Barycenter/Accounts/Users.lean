import Barycenter.Accounts.Authority

/-!
# Changes of one user row

What a change does to a row is decided from the row, from what other tables say
about the account, and from the number of the other active administrators.  A
change never makes an administrator without a second factor, and never takes the
last active administrator away.
-/

namespace Barycenter.Accounts

structure AccountError where
  status : Nat
  code : String
  message : String
deriving DecidableEq, Repr

def noUser : AccountError := ⟨404, "no_user", "그런 계정이 없다"⟩

def lastAdmin : AccountError :=
  ⟨409, "last_admin", "마지막 활성 관리자는 강등·정지·삭제할 수 없다"⟩

/-- What the statement that reads the row answers beside it. -/
structure Reading where
  hasIdentity : Bool
  byProvider : Bool
  hasFactor : Bool
  others : Nat
deriving DecidableEq, Repr

def guardLastAdmin (others : Nat) : Except AccountError Unit :=
  if others = 0 then .error lastAdmin else .ok ()

inductive PatchStatus where
  | active
  | suspended
deriving DecidableEq, Repr

def PatchStatus.status : PatchStatus → Status
  | .active => .active
  | .suspended => .suspended

structure UserPatch where
  role : Option Role
  status : Option PatchStatus
  roleAuthority : Option RoleAuthority
deriving DecidableEq, Repr

def UserPatch.authorityAfter (patch : UserPatch) (row : UserRow) : RoleAuthority :=
  patch.roleAuthority.getD row.roleAuthority

def UserPatch.statusAfter (patch : UserPatch) (row : UserRow) : Status :=
  (patch.status.map PatchStatus.status).getD row.status

/-- The role and the scopes that the row has after the patch; without the identity
provider's word only the role counts. -/
def UserPatch.next (patch : UserPatch) (row : UserRow) (byProvider : Bool) : IdpAuthority :=
  let role := patch.role.getD row.role
  if patch.authorityAfter row = .idp ∨ byProvider then
    { authorityOfRow row with role := role }
  else { role := role, grant := [], deny := [] }

def updateUser (row : UserRow) (patch : UserPatch) (reading : Reading) :
    Except AccountError UserRow := do
  if row.status = .deleted then throw noUser
  if (patch.authorityAfter row = .idp ∨ reading.byProvider) ∧ patch.role.isSome then
    throw ⟨409, "role_from_idp",
      if reading.byProvider then
        "이 계정의 역할은 IdP 가 정한다(공급자 기본 정본) — 먼저 「사람 → SSO 공급자」 에서 공급자 기본 IdP 정본을 끈다"
      else "이 계정의 역할은 IdP 가 정한다 — 먼저 권한 정본을 local 로 바꾼다"⟩
  if patch.authorityAfter row = .idp ∧ !reading.hasIdentity then
    throw ⟨409, "no_identity",
      "SSO 가 연결되지 않은 계정은 IdP 를 권한 정본으로 둘 수 없다"⟩
  let next := patch.next row reading.byProvider
  let wasAdmin := (authorityOfRow row).isAdmin
  if wasAdmin ∧ row.status = .active ∧ (!next.isAdmin ∨ patch.statusAfter row ≠ .active) then
    guardLastAdmin reading.others
  if next.isAdmin ∧ !wasAdmin ∧ !reading.hasFactor then
    throw ⟨409, "admin_needs_mfa",
      "관리자로 올리려면 그 사람이 먼저 인증 앱을 등록(또는 IdP OTP 의 IdP 와 연결)해야 한다"⟩
  return { row.withAuthority next with
    status := patch.statusAfter row, roleAuthority := patch.authorityAfter row }

def deleteUser (row : UserRow) (others : Nat) : Except AccountError UserRow := do
  if row.status = .deleted then throw noUser
  if ADMIN_SQL row ∧ row.status = .active then guardLastAdmin others
  return { row with status := .deleted }

/-! ## What a change keeps -/

/-- A change of a row that keeps the rules about administrators. -/
structure Careful (hasFactor : Bool) (others : Nat) (row changed : UserRow) : Prop where
  factor : ADMIN_SQL changed = true → ADMIN_SQL row = true ∨ hasFactor = true
  last : row.activeAdmin = true → changed.activeAdmin = true ∨ others ≠ 0

variable {row : UserRow}

theorem UserRow.activeAdmin_iff :
    row.activeAdmin = true ↔ ADMIN_SQL row = true ∧ row.status = .active := by
  simp [UserRow.activeAdmin]

variable {changed : UserRow} {others : Nat}

theorem applyIdp_careful {next value : IdpAuthority} {hasFactor : Bool}
    (applied : applyIdp row next hasFactor others = .ok (value, changed)) :
    Careful hasFactor others row changed ∧ changed.status = row.status := by
  simp only [applyIdp] at applied
  split at applied
  · cases applied
    exact ⟨⟨fun admin => .inl admin, fun admin => .inl admin⟩, rfl⟩
  · split at applied
    · cases applied
    · rename_i noGain
      split at applied
      · cases applied
      · rename_i noLoss
        cases applied
        simp only [isAdmin_authorityOfRow, Bool.and_eq_true, Bool.not_eq_true'] at noGain noLoss
        refine ⟨⟨fun admin => ?_, fun active => ?_⟩, rfl⟩
        · rw [ADMIN_SQL_withAuthority] at admin
          by_contra neither
          rw [not_or, Bool.not_eq_true, Bool.not_eq_true] at neither
          exact noGain ⟨⟨admin, neither.1⟩, neither.2⟩
        · obtain ⟨admin, isActive⟩ := UserRow.activeAdmin_iff.mp active
          rw [UserRow.activeAdmin_iff, ADMIN_SQL_withAuthority]
          by_contra neither
          rw [not_or, not_not, not_and'] at neither
          obtain ⟨lost, alone⟩ := neither
          have gone := lost isActive
          rw [Bool.not_eq_true] at gone
          exact noLoss ⟨⟨⟨admin, gone⟩, by simp [isActive]⟩, by simp [alone]⟩

theorem guardLastAdmin_ok {result : Unit}
    (passed : guardLastAdmin others = .ok result) : others ≠ 0 := by
  intro none
  simp [guardLastAdmin, none] at passed

variable {patch : UserPatch}

theorem UserPatch.statusAfter_ne_deleted
    (present : row.status ≠ .deleted) : patch.statusAfter row ≠ .deleted := by
  unfold UserPatch.statusAfter
  rcases patch.status with _ | status
  · exact present
  · cases status <;> simp [PatchStatus.status]

theorem updateUser_ok {reading : Reading}
    (updated : updateUser row patch reading = .ok changed) :
    row.status ≠ .deleted ∧
      changed = { row.withAuthority (patch.next row reading.byProvider) with
        status := patch.statusAfter row, roleAuthority := patch.authorityAfter row } ∧
      ((authorityOfRow row).isAdmin = true → row.status = .active →
        ((patch.next row reading.byProvider).isAdmin = false ∨
          patch.statusAfter row ≠ .active) → reading.others ≠ 0) ∧
      ((patch.next row reading.byProvider).isAdmin = true →
        (authorityOfRow row).isAdmin = false → reading.hasFactor = true) := by
  simp only [updateUser, bind, Except.bind, pure, Except.pure, throw, throwThe, MonadExceptOf.throw]
    at updated
  split at updated
  · cases updated
  rename_i present
  split at updated
  · cases updated
  split at updated
  · cases updated
  have gained : ∀ {rest : UserRow},
      (if (patch.next row reading.byProvider).isAdmin = true ∧
          (!(authorityOfRow row).isAdmin) = true ∧ (!reading.hasFactor) = true then
        Except.error ⟨409, "admin_needs_mfa",
          "관리자로 올리려면 그 사람이 먼저 인증 앱을 등록(또는 IdP OTP 의 IdP 와 연결)해야 한다"⟩
      else Except.ok rest) = (Except.ok changed : Except AccountError UserRow) →
      rest = changed ∧ ((patch.next row reading.byProvider).isAdmin = true →
        (authorityOfRow row).isAdmin = false → reading.hasFactor = true) := by
    intro rest accepted
    split at accepted
    · cases accepted
    · rename_i allowed
      cases accepted
      refine ⟨rfl, fun admin wasNot => ?_⟩
      by_contra without
      exact allowed ⟨admin, by simp [wasNot], by simpa using without⟩
  split at updated
  · cases guarded : guardLastAdmin reading.others with
    | error refusal => simp [guarded] at updated
    | ok result =>
        simp only [guarded] at updated
        obtain ⟨same, factor⟩ := gained updated
        exact ⟨present, same.symm, fun _ _ _ => guardLastAdmin_ok guarded, factor⟩
  · rename_i keeps
    obtain ⟨same, factor⟩ := gained updated
    refine ⟨present, same.symm, fun was active loses => ?_, factor⟩
    exact absurd ⟨was, active, by simpa using loses⟩ keeps

theorem updateUser_careful {reading : Reading}
    (updated : updateUser row patch reading = .ok changed) :
    Careful reading.hasFactor reading.others row changed ∧ row.status ≠ .deleted ∧
      changed.status ≠ .deleted := by
  obtain ⟨present, rfl, last, factor⟩ := updateUser_ok updated
  rw [isAdmin_authorityOfRow] at last factor
  have admin : ADMIN_SQL { row.withAuthority (patch.next row reading.byProvider) with
      status := patch.statusAfter row, roleAuthority := patch.authorityAfter row } =
      (patch.next row reading.byProvider).isAdmin := ADMIN_SQL_withAuthority row _
  refine ⟨⟨fun becomes => ?_, fun was => ?_⟩, present, UserPatch.statusAfter_ne_deleted present⟩
  · rw [admin] at becomes
    rcases Bool.eq_false_or_eq_true (ADMIN_SQL row) with already | wasNot
    · exact .inl already
    · exact .inr (factor becomes wasNot)
  · obtain ⟨wasAdmin, active⟩ := UserRow.activeAdmin_iff.mp was
    rw [UserRow.activeAdmin_iff, admin]
    by_cases keeps : (patch.next row reading.byProvider).isAdmin = true ∧
        patch.statusAfter row = .active
    · exact .inl keeps
    · refine .inr (last wasAdmin active ?_)
      rw [not_and_or, Bool.not_eq_true] at keeps
      exact keeps

theorem deleteUser_careful (deleted : deleteUser row others = .ok changed) :
    (row.activeAdmin = true → others ≠ 0) ∧ row.status ≠ .deleted ∧
      changed = { row with status := .deleted } := by
  simp only [deleteUser, bind, Except.bind, pure, Except.pure, throw, throwThe, MonadExceptOf.throw]
    at deleted
  split at deleted
  · cases deleted
  rename_i present
  split at deleted
  · cases guarded : guardLastAdmin others with
    | error refusal => simp [guarded] at deleted
    | ok result =>
        simp only [guarded, Except.ok.injEq] at deleted
        exact ⟨fun _ => guardLastAdmin_ok guarded, present, deleted.symm⟩
  · rename_i notLast
    cases deleted
    exact ⟨fun was => absurd (UserRow.activeAdmin_iff.mp was) notLast, present, rfl⟩

end Barycenter.Accounts
