import Barycenter.Accounts.Users
import Barycenter.Foundation.History
import Mathlib.Logic.Function.Basic

/-!
# The account tables and the operations on them

Each operation is one transaction, or a few that follow each other.  What is not
in these tables is answered from outside: whether a password or a code is right,
what the mapping makes of the provider's claims, the time.  A refused operation
leaves the tables as they are.
-/

namespace Barycenter.Accounts

structure Identity where
  issuer : String
  subject : String
  user : String
deriving DecidableEq, Repr

/-- A row of `sso_providers`; `mapped` says that a role claim and a mapping are
stored. -/
structure ProviderRow where
  jitEnabled : Bool
  idpAuthority : Bool
  mapped : Bool
deriving DecidableEq, Repr

inductive InvitationKind where
  | invite
  | bootstrap
  | recovery
deriving DecidableEq, Repr

structure Invitation where
  kind : InvitationKind
  forUser : Option String
  role : Role
  expiresAt : Nat
  /-- Used or revoked. -/
  closed : Bool
deriving DecidableEq, Repr

structure Tables where
  userIds : List String
  users : String → Option UserRow
  /-- Whether the authenticator of the account, if there is a row, is confirmed. -/
  mfaTotp : String → Option Bool
  identities : List Identity
  providers : String → Option ProviderRow
  invitations : String → Option Invitation

def Tables.empty : Tables :=
  { userIds := []
    users := fun _ => none
    mfaTotp := fun _ => none
    identities := []
    providers := fun _ => none
    invitations := fun _ => none }

/-! ## Reading the tables -/

inductive SecondFactorKind where
  | idp
  | totp
deriving DecidableEq, Repr

def Tables.identityOf (tables : Tables) (issuer subject : String) : Option Identity :=
  tables.identities.find? fun identity =>
    identity.issuer == issuer && identity.subject == subject

/-- An identity of the account at the provider that runs one-time codes. -/
def Tables.idpSubject (tables : Tables) (idpMfa : Option String) (user : String) : Bool :=
  match idpMfa with
  | none => false
  | some issuer =>
      tables.identities.any fun identity => identity.user == user && identity.issuer == issuer

def Tables.confirmedTotp (tables : Tables) (user : String) : Bool :=
  tables.mfaTotp user == some true

def Tables.factorOf (tables : Tables) (idpMfa : Option String) (user : String) :
    Option SecondFactorKind :=
  if tables.idpSubject idpMfa user then some .idp
  else if tables.confirmedTotp user then some .totp
  else none

def Tables.hasFactor (tables : Tables) (idpMfa : Option String) (user : String) : Bool :=
  (tables.factorOf idpMfa user).isSome

def Tables.PROVIDER_AUTHORITY_SQL (tables : Tables) (user : String) : Bool :=
  tables.identities.any fun identity =>
    identity.user == user && ((tables.providers identity.issuer).any ProviderRow.idpAuthority)

def Tables.IDP_AUTHORITY_SQL (tables : Tables) (user : String) (row : UserRow) : Bool :=
  row.roleAuthority == .idp || tables.PROVIDER_AUTHORITY_SQL user

def Tables.others (tables : Tables) (user : String) : Nat :=
  tables.userIds.countP fun other =>
    other != user && (tables.users other).any UserRow.activeAdmin

def Tables.reading (tables : Tables) (idpMfa : Option String) (user : String) : Reading :=
  { hasIdentity := tables.identities.any fun identity => identity.user == user
    byProvider := tables.PROVIDER_AUTHORITY_SQL user
    hasFactor := tables.hasFactor idpMfa user
    others := tables.others user }

/-! ## Writing the tables -/

def Tables.setUser (tables : Tables) (user : String) (row : UserRow) : Tables :=
  { tables with users := Function.update tables.users user (some row) }

def Tables.addUser (tables : Tables) (user : String) (role : Role) : Tables :=
  { tables with
    userIds := tables.userIds ++ [user]
    users := Function.update tables.users user
      (some { role := role, idpGrant := [], idpDeny := [], status := .active,
              roleAuthority := .localRole }) }

def Tables.setTotp (tables : Tables) (user : String) (totp : Option Bool) : Tables :=
  { tables with mfaTotp := Function.update tables.mfaTotp user totp }

def Tables.invited (tables : Tables) (token : String) (invitation : Invitation) : Tables :=
  { tables with
    invitations := Function.update tables.invitations token (some invitation) }

def Tables.closeLinks (tables : Tables) (user : String) : Tables :=
  { tables with
    invitations := fun token =>
      (tables.invitations token).map fun invitation =>
        if invitation.forUser = some user then { invitation with closed := true }
        else invitation }

def Tables.withoutIdentity (tables : Tables) (identity : Identity) : Tables :=
  { tables with identities := tables.identities.filter fun other => decide (other ≠ identity) }

/-- Whether the statement of `settleLocal` changes the row; it is run for one
account, or for all. -/
def Tables.settles (tables : Tables) (only : Option String) (user : String) (row : UserRow) :
    Bool :=
  (!row.idpGrant.isEmpty || !row.idpDeny.isEmpty) && !tables.IDP_AUTHORITY_SQL user row &&
    (only == none || only == some user)

/-- The grants and denials of accounts whose own role decides are cleared. -/
def Tables.settleLocal (tables : Tables) (only : Option String) : Tables :=
  { tables with
    users := fun user =>
      (tables.users user).map fun row =>
        if tables.settles only user row then row.cleared else row }

/-! ## Links -/

def linkInvalid : AccountError :=
  ⟨404, "link_invalid", "링크가 없거나 만료됐거나 이미 쓰였다"⟩

def INVITE_TTL_MS : Nat := 72 * 3600000
def BOOTSTRAP_TTL_MS : Nat := 24 * 3600000
def RECOVERY_TTL_MS : Nat := 24 * 3600000

def Tables.bootstrap (tables : Tables) (token : String) (now : Nat) : Except AccountError Tables :=
  if tables.userIds.any fun user => (tables.users user).any UserRow.activeAdmin then
    .error ⟨409, "admin_exists", "활성 관리자가 이미 있다 — bootstrap 은 첫 관리자용이다"⟩
  else
    .ok (tables.invited token
      { kind := .bootstrap, forUser := none, role := .admin,
        expiresAt := now + BOOTSTRAP_TTL_MS, closed := false })

def Tables.invite (tables : Tables) (token : String) (role : Role) (now : Nat) : Tables :=
  tables.invited token
    { kind := .invite, forUser := none, role := role, expiresAt := now + INVITE_TTL_MS,
      closed := false }

def Tables.recoveryLink (tables : Tables) (token user : String) (now : Nat) :
    Except AccountError Tables :=
  match tables.users user with
  | none => .error noUser
  | some row =>
      if row.status = .deleted then .error noUser
      else
        .ok ((tables.closeLinks user).invited token
          { kind := .recovery, forUser := some user, role := row.role,
            expiresAt := now + RECOVERY_TTL_MS, closed := false })

def noInvitation : AccountError := ⟨404, "no_invitation", "쓸 수 있는 초대가 아니다"⟩

def Tables.revokeInvitation (tables : Tables) (token : String) : Except AccountError Tables :=
  match tables.invitations token with
  | some invitation =>
      if invitation.closed then .error noInvitation
      else .ok (tables.invited token { invitation with closed := true })
  | none => .error noInvitation

def Tables.resendInvitation (tables : Tables) (old token : String) (now : Nat) :
    Except AccountError Tables :=
  match tables.invitations old with
  | some invitation =>
      if invitation.kind = .invite ∧ !invitation.closed then
        .ok ({ tables with invitations := Function.update tables.invitations old none }.invited
          token { invitation with expiresAt := now + INVITE_TTL_MS })
      else .error ⟨404, "no_invitation", "다시 보낼 수 있는 초대가 아니다"⟩
  | none => .error ⟨404, "no_invitation", "다시 보낼 수 있는 초대가 아니다"⟩

def Tables.usableLink (tables : Tables) (token : String) (now : Nat) :
    Except AccountError Invitation :=
  match tables.invitations token with
  | some invitation =>
      if invitation.closed ∨ invitation.expiresAt ≤ now then .error linkInvalid
      else .ok invitation
  | none => .error linkInvalid

/-- What a person sends to use a link: the new account's id stands for the free
name, and `totp` says whether the code fits the authenticator that is sent. -/
structure Acceptance where
  token : String
  newUser : String
  totp : Option Bool
deriving DecidableEq, Repr

/-- The authenticator that the link is used with; an administrator's role in the
link asks for one. -/
def totpOfLink (role : Role) : Option Bool → Except AccountError Bool
  | none =>
      if role = .admin then
        .error ⟨400, "totp_required", "관리자는 인증 앱(TOTP) 등록이 필요하다"⟩
      else .ok false
  | some false => .error ⟨400, "totp_mismatch", "인증 앱의 코드가 맞지 않는다"⟩
  | some true => .ok true

/-- The link is closed, and the authenticator that came with it is confirmed. -/
def Tables.useLink (opened : Tables) (token : String) (invitation : Invitation) (user : String)
    (totp : Bool) : Tables :=
  let used := opened.invited token { invitation with closed := true }
  if totp then used.setTotp user (some true) else used

def Tables.acceptLink (tables : Tables) (input : Acceptance) (now : Nat) :
    Except AccountError (Tables × String) := do
  let invitation ← tables.usableLink input.token now
  let totp ← totpOfLink invitation.role input.totp
  if invitation.kind = .recovery then
    match invitation.forUser with
    | none => throw linkInvalid
    | some user =>
        return ((tables.setTotp user none).useLink input.token invitation user totp, user)
  else if (tables.users input.newUser).isSome then
    throw ⟨409, "conflict", "이미 쓰이는 이름이나 이메일이다"⟩
  else
    return ((tables.addUser input.newUser invitation.role).useLink input.token invitation
      input.newUser totp, input.newUser)

/-! ## Accounts -/

def Tables.updateUser (tables : Tables) (idpMfa : Option String) (user : String)
    (patch : UserPatch) : Except AccountError Tables :=
  match tables.users user with
  | none => .error noUser
  | some row =>
      (Accounts.updateUser row patch (tables.reading idpMfa user)).map (tables.setUser user)

def Tables.deleteUser (tables : Tables) (user : String) : Except AccountError Tables :=
  match tables.users user with
  | none => .error noUser
  | some row =>
      (Accounts.deleteUser row (tables.others user)).map fun changed =>
        ((tables.setUser user changed).setTotp user none).closeLinks user

/-- The change of authority inside the caller's transaction. -/
def Tables.applyIdp (tables : Tables) (idpMfa : Option String) (user : String)
    (next : IdpAuthority) : Except String (IdpAuthority × Tables) :=
  match tables.users user with
  | none => .error "계정이 없다"
  | some row =>
      (Accounts.applyIdp row next (tables.hasFactor idpMfa user) (tables.others user)).map
        fun (value, changed) => (value, tables.setUser user changed)

/-! ## Single sign-on -/

inductive SsoOutcome where
  | notLinked
  | denied
  | mfa (method : SecondFactorKind)
  | session
deriving DecidableEq, Repr

def Tables.jitCreate (tables : Tables) (issuer subject user : String) : Tables :=
  let added := tables.addUser user .auditor
  { added with identities := added.identities ++ [⟨issuer, subject, user⟩] }

/-- The login of a known identity, after the account was found or made. -/
def Tables.loginOf (tables : Tables) (idpMfa : Option String) (user : String)
    (mapping : Option IdpAuthority) : Tables × SsoOutcome :=
  match tables.users user with
  | none => (tables, .denied)
  | some row =>
      if row.status ≠ .active then (tables, .denied)
      else
        let factor := tables.factorOf idpMfa user
        let synced : Option (IdpAuthority × Tables) :=
          if tables.IDP_AUTHORITY_SQL user row then
            mapping.bind fun next => (tables.applyIdp idpMfa user next).toOption
          else some (authorityOfRow row, tables)
        match synced with
        | none => (tables, .denied)
        | some (current, after) =>
            match factor with
            | some method => (after, .mfa method)
            | none => if current.isAdmin then (after, .denied) else (after, .session)

def Tables.completeSsoLogin (tables : Tables) (idpMfa : Option String)
    (issuer subject newUser : String) (mapping : Option IdpAuthority) : Tables × SsoOutcome :=
  match tables.identityOf issuer subject with
  | some identity => tables.loginOf idpMfa identity.user mapping
  | none =>
      match tables.providers issuer with
      | none => (tables, .notLinked)
      | some provider =>
          if !provider.jitEnabled then (tables, .notLinked)
          else if provider.idpAuthority ∧ mapping.isNone then (tables, .denied)
          else if (tables.users newUser).isSome then (tables, .denied)
          else (tables.jitCreate issuer subject newUser).loginOf idpMfa newUser mapping

def Tables.completeSsoLink (tables : Tables) (user issuer subject : String) :
    Except AccountError Tables :=
  match tables.identityOf issuer subject with
  | some identity =>
      if identity.user ≠ user then
        .error ⟨409, "identity_taken", "그 SSO 계정은 이미 다른 사람에게 연결돼 있다"⟩
      else .ok tables
  | none => .ok { tables with identities := tables.identities ++ [⟨issuer, subject, user⟩] }

/-- An event of the provider whose id and number are new. -/
def Tables.applyRoleChange (tables : Tables) (idpMfa : Option String) (issuer subject : String)
    (mapping : Option IdpAuthority) : Tables :=
  match tables.identityOf issuer subject with
  | none => tables
  | some identity =>
      match tables.users identity.user with
      | none => tables
      | some row =>
          if row.status ≠ .active then tables
          else if !tables.IDP_AUTHORITY_SQL identity.user row then tables
          else
            let next := mapping.getD { role := row.role, grant := [], deny := ALL_SCOPES }
            match tables.applyIdp idpMfa identity.user next with
            | .error _ => tables
            | .ok (_, after) => after

def Tables.unlinkIdentity (tables : Tables) (idpMfa : Option String)
    (user issuer subject : String) : Except AccountError Tables :=
  let identity : Identity := ⟨issuer, subject, user⟩
  let unlinked := tables.withoutIdentity identity
  if identity ∉ tables.identities then
    .error ⟨404, "no_identity", "그 연결이 없다"⟩
  else if (tables.users user).any ADMIN_SQL ∧ (unlinked.factorOf idpMfa user).isNone then
    .error ⟨409, "admin_needs_mfa",
      "관리자의 유일한 둘째 인증(IdP OTP)이라 끊을 수 없다 — 먼저 인증 앱을 등록한다"⟩
  else .ok (unlinked.settleLocal (some user))

def Tables.setProvider (tables : Tables) (issuer : String) (change : ProviderRow → ProviderRow) :
    Tables :=
  { tables with
    providers := Function.update tables.providers issuer
      (some (change ((tables.providers issuer).getD ⟨false, false, false⟩))) }

def Tables.setProviderAuthority (tables : Tables) (issuer : String) (enabled : Bool) :
    Except AccountError Tables :=
  if enabled ∧ !(tables.providers issuer).any ProviderRow.mapped then
    .error ⟨409, "roles_not_configured",
      "역할 클레임과 매핑을 먼저 저장한다 — 없이 켜면 이 공급자로 오는 사람이 모두 로그인을 거부당한다"⟩
  else
    let stored := tables.setProvider issuer ({ · with idpAuthority := enabled })
    .ok (if enabled then stored else stored.settleLocal none)

/-! ## Authenticators -/

def Tables.beginTotp (tables : Tables) (user : String) : Except AccountError Tables :=
  if tables.confirmedTotp user then
    .error ⟨409, "totp_exists", "이미 등록된 인증 앱이 있다 — 먼저 해제한다"⟩
  else .ok (tables.setTotp user (some false))

def Tables.confirmTotp (tables : Tables) (user : String) : Except AccountError Tables :=
  if tables.mfaTotp user = some false then .ok (tables.setTotp user (some true))
  else .error ⟨409, "no_pending_totp", "확인할 등록이 없다"⟩

def Tables.removeTotp (tables : Tables) (user : String) : Except AccountError Tables :=
  if (tables.users user).any ADMIN_SQL then
    .error ⟨409, "admin_needs_mfa", "관리자는 인증 앱을 해제할 수 없다"⟩
  else .ok (tables.setTotp user none)

end Barycenter.Accounts
