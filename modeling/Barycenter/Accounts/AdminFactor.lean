import Barycenter.Accounts.Tables
import Mathlib.Logic.Basic

/-!
# Administrators and their second factor

Every account that is not deleted and has the administrator's scope has a second
factor, as long as no recovery link is used without an authenticator by an
administrator who has no other factor, and no denial is cleared from an
administrator's role without a factor.  Both can happen: a link keeps the role of
the moment it was made in, and the clearing of what the provider denied asks for
nothing.
-/

namespace Barycenter.Accounts

/-! ## Operations -/

inductive Operation where
  | bootstrap (token : String) (now : Nat)
  | invite (token : String) (role : Role) (now : Nat)
  | resendInvitation (old token : String) (now : Nat)
  | revokeInvitation (token : String)
  | recoveryLink (token user : String) (now : Nat)
  | acceptLink (input : Acceptance) (now : Nat)
  | updateUser (user : String) (patch : UserPatch)
  | deleteUser (user : String)
  | completeSsoLogin (issuer subject newUser : String) (mapping : Option IdpAuthority)
  | completeSsoLink (user issuer subject : String)
  | applyRoleChange (issuer subject : String) (mapping : Option IdpAuthority)
  | unlinkIdentity (user issuer subject : String)
  | setProviderAuthority (issuer : String) (enabled : Bool)
  | setProviderJit (issuer : String) (enabled : Bool)
  | setProviderMapping (issuer : String) (mapped : Bool)
  | beginTotp (user : String)
  | confirmTotp (user : String)
  | removeTotp (user : String)
deriving DecidableEq, Repr

def Tables.after {ε : Type} (tables : Tables) : Except ε Tables → Tables
  | .ok changed => changed
  | .error _ => tables

def Tables.run (idpMfa : Option String) (tables : Tables) : Operation → Tables
  | .bootstrap token now => tables.after (tables.bootstrap token now)
  | .invite token role now => tables.invite token role now
  | .resendInvitation old token now => tables.after (tables.resendInvitation old token now)
  | .revokeInvitation token => tables.after (tables.revokeInvitation token)
  | .recoveryLink token user now => tables.after (tables.recoveryLink token user now)
  | .acceptLink input now => tables.after ((tables.acceptLink input now).map Prod.fst)
  | .updateUser user patch => tables.after (tables.updateUser idpMfa user patch)
  | .deleteUser user => tables.after (tables.deleteUser user)
  | .completeSsoLogin issuer subject newUser mapping =>
      (tables.completeSsoLogin idpMfa issuer subject newUser mapping).1
  | .completeSsoLink user issuer subject =>
      tables.after (tables.completeSsoLink user issuer subject)
  | .applyRoleChange issuer subject mapping =>
      tables.applyRoleChange idpMfa issuer subject mapping
  | .unlinkIdentity user issuer subject =>
      tables.after (tables.unlinkIdentity idpMfa user issuer subject)
  | .setProviderAuthority issuer enabled =>
      tables.after (tables.setProviderAuthority issuer enabled)
  | .setProviderJit issuer enabled =>
      tables.setProvider issuer ({ · with jitEnabled := enabled })
  | .setProviderMapping issuer mapped => tables.setProvider issuer ({ · with mapped := mapped })
  | .beginTotp user => tables.after (tables.beginTotp user)
  | .confirmTotp user => tables.after (tables.confirmTotp user)
  | .removeTotp user => tables.after (tables.removeTotp user)

def Operates (idpMfa : Option String) (before : Tables) (operation : Operation)
    (after : Tables) : Prop :=
  some (before.run idpMfa operation) = some after

/-! ## The property and the condition -/

def AdminsHaveFactor (idpMfa : Option String) (tables : Tables) : Prop :=
  ∀ user row, tables.users user = some row → row.activeAdmin = true →
    tables.hasFactor idpMfa user = true

/-- No account whose denials the statement clears gets the administrator's scope
of its role back without a second factor. -/
def Tables.SettlesSafely (idpMfa : Option String) (tables : Tables) (only : Option String) :
    Prop :=
  ∀ user ∈ tables.userIds, ∀ row ∈ tables.users user, row.status ≠ .deleted →
    tables.settles only user row = true → row.role = .admin → tables.hasFactor idpMfa user = true

/-- A recovery link that is used without an authenticator is not an
administrator's, or the account has the provider's codes. -/
def Tables.RecoversSafely (idpMfa : Option String) (tables : Tables) (input : Acceptance)
    (now : Nat) : Prop :=
  ∀ invitation ∈ (tables.usableLink input.token now).toOption,
    invitation.kind = .recovery → invitation.role ≠ .admin → input.totp = none →
    ∀ user ∈ invitation.forUser, ∀ row ∈ tables.users user,
      row.status ≠ .deleted → ADMIN_SQL row = true → tables.idpSubject idpMfa user = true

instance (idpMfa : Option String) (tables : Tables) (only : Option String) :
    Decidable (tables.SettlesSafely idpMfa only) := by
  unfold Tables.SettlesSafely
  infer_instance

instance (idpMfa : Option String) (tables : Tables) (input : Acceptance) (now : Nat) :
    Decidable (tables.RecoversSafely idpMfa input now) := by
  unfold Tables.RecoversSafely
  refine @Option.decidableForallMem _ _ (fun invitation => ?_) _
  exact @instDecidableForall _ _ _ (@instDecidableForall _ _ _
    (@instDecidableForall _ _ _ inferInstance))

def Operation.Mindful (idpMfa : Option String) (tables : Tables) : Operation → Prop
  | .acceptLink input now => tables.RecoversSafely idpMfa input now
  | .unlinkIdentity user issuer subject =>
      (tables.withoutIdentity ⟨issuer, subject, user⟩).SettlesSafely idpMfa (some user)
  | .setProviderAuthority issuer enabled =>
      enabled = false →
        (tables.setProvider issuer ({ · with idpAuthority := false })).SettlesSafely idpMfa none
  | _ => True

instance (idpMfa : Option String) (tables : Tables) (operation : Operation) :
    Decidable (operation.Mindful idpMfa tables) := by
  unfold Operation.Mindful
  split <;> infer_instance

/-! ## The invariant -/

structure Guarded (idpMfa : Option String) (tables : Tables) : Prop where
  listed : ∀ user row, tables.users user = some row → user ∈ tables.userIds
  factor : ∀ user row, tables.users user = some row → row.status ≠ .deleted →
    ADMIN_SQL row = true → tables.hasFactor idpMfa user = true

section

variable {idpMfa : Option String} {tables after : Tables} {user : String} {row changed : UserRow}

theorem Guarded.adminsHaveFactor (guarded : Guarded idpMfa tables) :
    AdminsHaveFactor idpMfa tables := by
  intro user row known active
  obtain ⟨admin, isActive⟩ := UserRow.activeAdmin_iff.mp active
  exact guarded.factor user row known (by simp [isActive]) admin

theorem Tables.hasFactor_iff :
    tables.hasFactor idpMfa user = true ↔
      tables.idpSubject idpMfa user = true ∨ tables.confirmedTotp user = true := by
  unfold Tables.hasFactor Tables.factorOf
  split
  · simp [*]
  · split <;> simp [*]

theorem Tables.hasFactor_mono (idp : tables.idpSubject idpMfa user = true →
      after.idpSubject idpMfa user = true)
    (totp : tables.confirmedTotp user = true → after.confirmedTotp user = true)
    (has : tables.hasFactor idpMfa user = true) : after.hasFactor idpMfa user = true := by
  rw [Tables.hasFactor_iff] at has ⊢
  exact has.imp idp totp

theorem Tables.idpSubject_append {more : List Identity}
    (identities : after.identities = tables.identities ++ more)
    (subject : tables.idpSubject idpMfa user = true) : after.idpSubject idpMfa user = true := by
  unfold Tables.idpSubject at subject ⊢
  cases idpMfa with
  | none => exact subject
  | some issuer =>
      simp only [identities, List.any_append, subject, Bool.true_or]

theorem Guarded.of_rows (guarded : Guarded idpMfa tables) (userIds : after.userIds = tables.userIds)
    (users : after.users = tables.users)
    (factor : ∀ user, tables.hasFactor idpMfa user = true → after.hasFactor idpMfa user = true) :
    Guarded idpMfa after := by
  constructor
  · intro user row known
    rw [users] at known
    rw [userIds]
    exact guarded.listed user row known
  · intro user row known present admin
    rw [users] at known
    exact factor user (guarded.factor user row known present admin)

theorem Guarded.setUser (guarded : Guarded idpMfa tables)
    (known : tables.users user = some row)
    (factor : changed.status ≠ .deleted → ADMIN_SQL changed = true →
      tables.hasFactor idpMfa user = true) :
    Guarded idpMfa (tables.setUser user changed) := by
  constructor
  · intro other row found
    by_cases same : other = user
    · subst same
      exact guarded.listed other _ known
    · simp only [Tables.setUser, Function.update_of_ne same] at found
      exact guarded.listed other row found
  · intro other row found present admin
    by_cases same : other = user
    · subst same
      simp only [Tables.setUser, Function.update_self, Option.some.injEq] at found
      subst found
      exact factor present admin
    · simp only [Tables.setUser, Function.update_of_ne same] at found
      exact guarded.factor other row found present admin

theorem Guarded.enrolled {role : Role} (guarded : Guarded idpMfa tables)
    (userIds : after.userIds = tables.userIds ++ [user])
    (users : after.users = (tables.addUser user role).users)
    (factor : ∀ user, tables.hasFactor idpMfa user = true → after.hasFactor idpMfa user = true)
    (new : role = .admin → after.hasFactor idpMfa user = true) : Guarded idpMfa after := by
  constructor
  · intro other row found
    rw [userIds]
    by_cases same : other = user
    · simp [same]
    · simp only [users, Tables.addUser, Function.update_of_ne same] at found
      exact List.mem_append_left _ (guarded.listed other row found)
  · intro other row found present admin
    by_cases same : other = user
    · subst same
      simp only [users, Tables.addUser, Function.update_self, Option.some.injEq] at found
      subst found
      exact new (by simpa [ADMIN_SQL] using admin)
    · simp only [users, Tables.addUser, Function.update_of_ne same] at found
      exact factor other (guarded.factor other row found present admin)

theorem Tables.hasFactor_setTotp_true (has : tables.hasFactor idpMfa user = true) (other : String) :
    (tables.setTotp other (some true)).hasFactor idpMfa user = true := by
  refine @Tables.hasFactor_mono _ tables _ _ id (fun confirmed => ?_) has
  by_cases same : user = other
  · simp [Tables.confirmedTotp, Tables.setTotp, same]
  · simpa [Tables.confirmedTotp, Tables.setTotp, Function.update_of_ne same] using confirmed

theorem Guarded.setTotp {totp : Option Bool} (guarded : Guarded idpMfa tables)
    (safe : ∀ row, tables.users user = some row → row.status ≠ .deleted → ADMIN_SQL row = true →
      tables.idpSubject idpMfa user = true ∨ totp = some true) :
    Guarded idpMfa (tables.setTotp user totp) := by
  refine ⟨guarded.listed, fun other row found present admin => ?_⟩
  rw [Tables.hasFactor_iff]
  by_cases same : other = user
  · subst same
    refine (safe row found present admin).imp id fun confirmed => ?_
    simp [Tables.confirmedTotp, Tables.setTotp, confirmed]
  · have has := Tables.hasFactor_iff.mp (guarded.factor other row found present admin)
    refine has.imp id fun confirmed => ?_
    simpa [Tables.confirmedTotp, Tables.setTotp, Function.update_of_ne same] using confirmed

theorem Guarded.settleLocal {only : Option String} (guarded : Guarded idpMfa tables)
    (safe : tables.SettlesSafely idpMfa only) : Guarded idpMfa (tables.settleLocal only) := by
  constructor
  · intro other row found
    simp only [Tables.settleLocal, Option.map_eq_some_iff] at found
    obtain ⟨old, known, -⟩ := found
    exact guarded.listed other old known
  · intro other row found present admin
    simp only [Tables.settleLocal, Option.map_eq_some_iff] at found
    obtain ⟨old, known, becomes⟩ := found
    show tables.hasFactor idpMfa other = true
    by_cases settled : tables.settles only other old = true
    · rw [if_pos settled] at becomes
      subst becomes
      rw [ADMIN_SQL_cleared, beq_iff_eq] at admin
      exact safe other (guarded.listed other old known) old known present settled admin
    · rw [if_neg settled] at becomes
      subst becomes
      exact guarded.factor other _ known present admin

theorem Guarded.applyIdp {next value : IdpAuthority} (guarded : Guarded idpMfa tables)
    (applied : tables.applyIdp idpMfa user next = .ok (value, after)) :
    Guarded idpMfa after := by
  unfold Tables.applyIdp at applied
  cases known : tables.users user with
  | none => simp [known] at applied
  | some row =>
      simp only [known] at applied
      cases outcome : Accounts.applyIdp row next (tables.hasFactor idpMfa user)
          (tables.others user) with
      | error why => simp [outcome, Except.map] at applied
      | ok result =>
          obtain ⟨decided, changed⟩ := result
          simp only [outcome, Except.map, Except.ok.injEq, Prod.mk.injEq] at applied
          obtain ⟨-, rfl⟩ := applied
          obtain ⟨careful, status⟩ := applyIdp_careful outcome
          refine guarded.setUser known fun present admin => ?_
          rcases careful.factor admin with already | has
          · exact guarded.factor user row known (status ▸ present) already
          · exact has

/-! ## One operation -/

theorem acceptLink_ok {input : Acceptance} {now : Nat} {accepted : Tables × String}
    (done : tables.acceptLink input now = .ok accepted) :
    ∃ invitation totp, tables.usableLink input.token now = .ok invitation ∧
      totpOfLink invitation.role input.totp = .ok totp ∧
      ((∃ user, invitation.kind = .recovery ∧ invitation.forUser = some user ∧
          accepted = ((tables.setTotp user none).useLink input.token invitation user totp,
            user)) ∨
        accepted = ((tables.addUser input.newUser invitation.role).useLink input.token
          invitation input.newUser totp, input.newUser)) := by
  simp only [Tables.acceptLink, bind, Except.bind, pure, Except.pure, throw, throwThe,
    MonadExceptOf.throw] at done
  cases usable : tables.usableLink input.token now with
  | error refusal => simp [usable] at done
  | ok invitation =>
      cases asked : totpOfLink invitation.role input.totp with
      | error refusal => simp [usable, asked] at done
      | ok totp =>
          simp only [usable, asked] at done
          refine ⟨invitation, totp, rfl, asked, ?_⟩
          split at done
          · rename_i recovery
            split at done
            · cases done
            · rename_i user forUser
              cases done
              exact .inl ⟨user, recovery, forUser, rfl⟩
          · split at done
            · cases done
            · cases done
              exact .inr rfl

theorem totpOfLink_admin {totp : Option Bool} {confirmed : Bool}
    (asked : totpOfLink .admin totp = .ok confirmed) : confirmed = true := by
  unfold totpOfLink at asked
  split at asked
  · simp at asked
  · cases asked
  · cases asked
    rfl

theorem Tables.confirmedTotp_useLink {opened : Tables} {token : String} {invitation : Invitation} :
    (opened.useLink token invitation user true).confirmedTotp user = true := by
  simp [Tables.useLink, Tables.confirmedTotp, Tables.setTotp]

theorem guarded_useLink {opened : Tables} {token : String} {invitation : Invitation}
    {totp : Bool} (guarded : Guarded idpMfa opened) :
    Guarded idpMfa (opened.useLink token invitation user totp) := by
  have noted : Guarded idpMfa (opened.invited token { invitation with closed := true }) :=
    guarded.of_rows rfl rfl fun _ has => has
  cases totp with
  | false => exact noted
  | true => exact noted.setTotp fun _ _ _ _ => .inr rfl

theorem guarded_acceptLink {input : Acceptance} {now : Nat} {accepted : Tables × String}
    (guarded : Guarded idpMfa tables) (mindful : tables.RecoversSafely idpMfa input now)
    (done : tables.acceptLink input now = .ok accepted) : Guarded idpMfa accepted.1 := by
  obtain ⟨invitation, totp, usable, asked, ⟨user, recovery, forUser, rfl⟩ | rfl⟩ :=
    acceptLink_ok done
  · cases totp with
    | true =>
        -- The old authenticator goes and the new one is confirmed at once.
        have replaced : Guarded idpMfa (tables.setTotp user (some true)) :=
          guarded.setTotp fun _ _ _ _ => .inr rfl
        refine replaced.of_rows rfl rfl fun other has => ?_
        refine @Tables.hasFactor_mono _ (tables.setTotp user (some true)) _ _ id
          (fun confirmed => ?_) has
        simpa [Tables.confirmedTotp, Tables.useLink, Tables.setTotp, Tables.invited]
          using confirmed
    | false =>
        have without : input.totp = none := by
          unfold totpOfLink at asked
          split at asked
          · assumption
          · cases asked
          · cases asked
        have notAdmin : invitation.role ≠ .admin := by
          intro isAdmin
          rw [isAdmin] at asked
          exact absurd (totpOfLink_admin asked) (by simp)
        have removed : Guarded idpMfa (tables.setTotp user none) :=
          guarded.setTotp fun row known present admin =>
            .inl (mindful invitation (by simp [usable, Except.toOption]) recovery notAdmin without
              user forUser row known present admin)
        show Guarded idpMfa
          ((tables.setTotp user none).useLink input.token invitation user false)
        exact guarded_useLink removed
  · refine @Guarded.enrolled _ _ _ input.newUser invitation.role guarded ?_ ?_ (fun user has => ?_)
      fun isAdmin => ?_
    · cases totp <;> rfl
    · cases totp <;> rfl
    · cases totp with
      | false => exact has
      | true => exact Tables.hasFactor_setTotp_true has _
    · rw [isAdmin] at asked
      rw [totpOfLink_admin asked, Tables.hasFactor_iff]
      exact .inr Tables.confirmedTotp_useLink

variable {mapping : Option IdpAuthority}

theorem guarded_loginOf (guarded : Guarded idpMfa tables) :
    Guarded idpMfa (tables.loginOf idpMfa user mapping).1 := by
  unfold Tables.loginOf
  split
  · exact guarded
  · rename_i row known
    split
    · exact guarded
    · dsimp only
      split
      · exact guarded
      · rename_i current later synced
        have kept : Guarded idpMfa later := by
          split at synced
          · obtain ⟨next, -, applied⟩ := Option.bind_eq_some_iff.mp synced
            cases outcome : tables.applyIdp idpMfa user next with
            | error why => simp [outcome, Except.toOption] at applied
            | ok result =>
                simp only [outcome, Except.toOption, Option.some.injEq] at applied
                subst applied
                exact guarded.applyIdp outcome
          · cases synced
            exact guarded
        split
        · exact kept
        · split <;> exact kept

variable {issuer subject : String}

theorem guarded_completeSsoLogin {newUser : String}
    (guarded : Guarded idpMfa tables) :
    Guarded idpMfa (tables.completeSsoLogin idpMfa issuer subject newUser mapping).1 := by
  unfold Tables.completeSsoLogin
  split
  · exact guarded_loginOf guarded
  · split
    · exact guarded
    · split
      · exact guarded
      · split
        · exact guarded
        · split
          · exact guarded
          · apply guarded_loginOf
            refine @Guarded.enrolled _ _ _ _ .auditor guarded rfl rfl (fun user has => ?_)
              (fun admin => by cases admin)
            exact @Tables.hasFactor_mono _ tables _ _
              (fun found => Tables.idpSubject_append rfl found) id has

theorem guarded_applyRoleChange (guarded : Guarded idpMfa tables) :
    Guarded idpMfa (tables.applyRoleChange idpMfa issuer subject mapping) := by
  unfold Tables.applyRoleChange
  split
  · exact guarded
  · split
    · exact guarded
    · split
      · exact guarded
      · split
        · exact guarded
        · dsimp only
          split
          · exact guarded
          · rename_i applied
            exact guarded.applyIdp applied

theorem Tables.idpSubject_withoutIdentity {identity : Identity} (apart : user ≠ identity.user)
    (subject : tables.idpSubject idpMfa user = true) :
    (tables.withoutIdentity identity).idpSubject idpMfa user = true := by
  unfold Tables.idpSubject at subject ⊢
  cases idpMfa with
  | none => exact subject
  | some issuer =>
      simp only [List.any_eq_true, Bool.and_eq_true, beq_iff_eq] at subject ⊢
      obtain ⟨found, member, same, atIssuer⟩ := subject
      refine ⟨found, List.mem_filter.mpr ⟨member, decide_eq_true ?_⟩, same, atIssuer⟩
      rintro rfl
      exact apart same.symm

theorem guarded_unlinkIdentity (guarded : Guarded idpMfa tables)
    (mindful : (tables.withoutIdentity ⟨issuer, subject, user⟩).SettlesSafely idpMfa (some user))
    (done : tables.unlinkIdentity idpMfa user issuer subject = .ok after) :
    Guarded idpMfa after := by
  simp only [Tables.unlinkIdentity] at done
  split at done
  · cases done
  split at done
  · cases done
  rename_i allowed
  cases done
  refine Guarded.settleLocal ⟨guarded.listed, fun other row known present admin => ?_⟩ mindful
  by_cases same : other = user
  · subst same
    by_contra without
    refine allowed ⟨?_, ?_⟩
    · rw [show tables.users other = some row from known]
      exact admin
    · simpa [Tables.hasFactor] using without
  · have has := guarded.factor other row known present admin
    exact @Tables.hasFactor_mono _ tables _ _
      (fun found => Tables.idpSubject_withoutIdentity same found) id has

theorem guarded_setProviderAuthority {enabled : Bool}
    (guarded : Guarded idpMfa tables)
    (mindful : enabled = false →
      (tables.setProvider issuer ({ · with idpAuthority := false })).SettlesSafely idpMfa none)
    (done : tables.setProviderAuthority issuer enabled = .ok after) : Guarded idpMfa after := by
  have stored : ∀ change, Guarded idpMfa (tables.setProvider issuer change) :=
    fun _ => guarded.of_rows rfl rfl fun _ has => has
  simp only [Tables.setProviderAuthority] at done
  split at done
  · cases done
  · cases done
    cases enabled with
    | true =>
        rw [if_pos rfl]
        exact stored _
    | false =>
        rw [if_neg (by decide)]
        exact (stored _).settleLocal (mindful rfl)

theorem Guarded.of_result {ε : Type} {result : Except ε Tables} (guarded : Guarded idpMfa tables)
    (kept : ∀ changed, result = .ok changed → Guarded idpMfa changed) :
    Guarded idpMfa (tables.after result) := by
  cases result with
  | ok changed => exact kept changed rfl
  | error refusal => exact guarded

theorem guarded_run {operation : Operation} (guarded : Guarded idpMfa tables)
    (mindful : operation.Mindful idpMfa tables) :
    Guarded idpMfa (tables.run idpMfa operation) := by
  cases operation with
  | bootstrap token now =>
      refine guarded.of_result fun changed done => ?_
      unfold Tables.bootstrap at done
      split at done
      · cases done
      · cases done
        exact guarded.of_rows rfl rfl fun _ has => has
  | invite token role now => exact guarded.of_rows rfl rfl fun _ has => has
  | resendInvitation old token now =>
      refine guarded.of_result fun changed done => ?_
      unfold Tables.resendInvitation at done
      split at done
      · split at done
        · cases done
          exact guarded.of_rows rfl rfl fun _ has => has
        · cases done
      · cases done
  | revokeInvitation token =>
      refine guarded.of_result fun changed done => ?_
      unfold Tables.revokeInvitation at done
      split at done
      · split at done
        · cases done
        · cases done
          exact guarded.of_rows rfl rfl fun _ has => has
      · cases done
  | recoveryLink token user now =>
      refine guarded.of_result fun changed done => ?_
      unfold Tables.recoveryLink at done
      split at done
      · cases done
      · split at done
        · cases done
        · cases done
          exact guarded.of_rows rfl rfl fun _ has => has
  | acceptLink input now =>
      refine guarded.of_result fun changed done => ?_
      cases accepted : tables.acceptLink input now with
      | error refusal => simp [accepted, Except.map] at done
      | ok result =>
          simp only [accepted, Except.map, Except.ok.injEq] at done
          subst done
          exact guarded_acceptLink guarded mindful accepted
  | updateUser user patch =>
      refine guarded.of_result fun changed done => ?_
      unfold Tables.updateUser at done
      split at done
      · cases done
      · rename_i row known
        cases updated : Accounts.updateUser row patch (tables.reading idpMfa user) with
        | error refusal => simp [updated, Except.map] at done
        | ok changedRow =>
            simp only [updated, Except.map, Except.ok.injEq] at done
            subst done
            obtain ⟨careful, present, -⟩ := updateUser_careful updated
            refine guarded.setUser known fun _ admin => ?_
            rcases careful.factor admin with already | has
            · exact guarded.factor user row known present already
            · exact has
  | deleteUser user =>
      refine guarded.of_result fun changed done => ?_
      unfold Tables.deleteUser at done
      split at done
      · cases done
      · rename_i row known
        cases deleted : Accounts.deleteUser row (tables.others user) with
        | error refusal => simp [deleted, Except.map] at done
        | ok changedRow =>
            simp only [deleted, Except.map, Except.ok.injEq] at done
            subst done
            obtain ⟨-, -, rfl⟩ := deleteUser_careful deleted
            have gone : Guarded idpMfa (tables.setUser user { row with status := .deleted }) :=
              guarded.setUser known fun present => absurd rfl present
            refine (gone.setTotp fun other found present => ?_).of_rows rfl rfl fun _ has => has
            simp only [Tables.setUser, Function.update_self, Option.some.injEq] at found
            subst found
            exact absurd rfl present
  | completeSsoLogin issuer subject newUser mapping => exact guarded_completeSsoLogin guarded
  | completeSsoLink user issuer subject =>
      refine guarded.of_result fun changed done => ?_
      unfold Tables.completeSsoLink at done
      split at done
      · split at done
        · cases done
        · cases done
          exact guarded
      · cases done
        refine guarded.of_rows rfl rfl fun _ has => ?_
        exact @Tables.hasFactor_mono _ tables _ _
          (fun found => Tables.idpSubject_append rfl found) id has
  | applyRoleChange issuer subject mapping => exact guarded_applyRoleChange guarded
  | unlinkIdentity user issuer subject =>
      exact guarded.of_result fun changed done => guarded_unlinkIdentity guarded mindful done
  | setProviderAuthority issuer enabled =>
      exact guarded.of_result fun changed done =>
        guarded_setProviderAuthority guarded mindful done
  | setProviderJit issuer enabled | setProviderMapping issuer mapped =>
      exact guarded.of_rows rfl rfl fun _ has => has
  | beginTotp user =>
      refine guarded.of_result fun changed done => ?_
      unfold Tables.beginTotp at done
      split at done
      · cases done
      · rename_i unconfirmed
        cases done
        refine guarded.setTotp fun row known present admin => .inl ?_
        have has := Tables.hasFactor_iff.mp (guarded.factor user row known present admin)
        exact has.resolve_right unconfirmed
  | confirmTotp user =>
      refine guarded.of_result fun changed done => ?_
      unfold Tables.confirmTotp at done
      split at done
      · cases done
        exact guarded.setTotp fun _ _ _ _ => .inr rfl
      · cases done
  | removeTotp user =>
      refine guarded.of_result fun changed done => ?_
      unfold Tables.removeTotp at done
      split at done
      · cases done
      · rename_i notAdmin
        cases done
        refine guarded.setTotp fun row known _ admin => ?_
        rw [known] at notAdmin
        exact absurd admin notAdmin

theorem guarded_empty : Guarded idpMfa .empty := by
  constructor <;> intro user row known <;> cases known

end

/-! ## Runs -/

section

variable {idpMfa : Option String} {final : Tables} {history : List (Event Tables Operation)}

/-- In every run whose operations all are mindful, every active administrator has
a second factor, in every state that is reached. -/
theorem admins_have_factor
    (run : Follows (Operates idpMfa) .empty history final)
    (mindful : ∀ event ∈ history, event.label.Mindful idpMfa event.before) :
    AdminsHaveFactor idpMfa final ∧
      ∀ event ∈ history, AdminsHaveFactor idpMfa event.before := by
  have kept : ∀ event ∈ history, Operates idpMfa event.before event.label event.after →
      Guarded idpMfa event.before → Guarded idpMfa event.after := by
    intro event member operated guarded
    rw [← Option.some.inj operated]
    exact guarded_run guarded (mindful event member)
  refine ⟨?_, fun event member => ?_⟩
  · exact (run.invariant_along (Guarded idpMfa) guarded_empty kept).adminsHaveFactor
  · exact (run.throughout (Guarded idpMfa) guarded_empty kept event member).adminsHaveFactor

/-! ## Runs of one administrator -/

/-- The first administrator, and an auditor who confirms an authenticator. -/
def rootAndAnn : List Operation :=
  [.bootstrap "t0" 0, .acceptLink ⟨"t0", "root", some true⟩ 1, .invite "t1" .auditor 2,
    .acceptLink ⟨"t1", "ann", none⟩ 3, .beginTotp "ann", .confirmTotp "ann"]

/-- The recovery link is made after the promotion, and asks for an authenticator. -/
def promotedThenRecovered : List Operation :=
  rootAndAnn ++ [.updateUser "ann" ⟨some .admin, none, none⟩, .recoveryLink "t2" "ann" 4,
    .acceptLink ⟨"t2", "ann", some true⟩ 5]

/-- The recovery link is made for an auditor and used by an administrator. -/
def recoveredThenPromoted : List Operation :=
  rootAndAnn ++ [.recoveryLink "t2" "ann" 4, .updateUser "ann" ⟨some .admin, none, none⟩,
    .acceptLink ⟨"t2", "ann", none⟩ 5]

theorem admins_have_factor_after_recovery :
    ∃ history final, Follows (Operates none) .empty history final ∧
      history.map Event.label = promotedThenRecovered ∧ AdminsHaveFactor none final := by
  obtain ⟨history, final, run, labels, mindful⟩ := @follows_of_attempt _ _
    (fun (before : Tables) operation => some (before.run none operation)) .empty promotedThenRecovered
    (fun (history, _) => decide (∀ event ∈ history, event.label.Mindful none event.before))
    (by decide +kernel)
  exact ⟨history, final, run, labels, (admins_have_factor run (of_decide_eq_true mindful)).1⟩

theorem recovered_admin_has_no_factor :
    ∃ history final, Follows (Operates none) .empty history final ∧
      history.map Event.label = recoveredThenPromoted ∧ ¬ AdminsHaveFactor none final := by
  obtain ⟨history, final, run, labels, found⟩ := @follows_of_attempt _ _
    (fun (before : Tables) operation => some (before.run none operation)) .empty recoveredThenPromoted
    (fun (_, final) =>
      (final.users "ann").any UserRow.activeAdmin && !final.hasFactor none "ann")
    (by decide +kernel)
  refine ⟨history, final, run, labels, fun whole => ?_⟩
  obtain ⟨isAdmin, without⟩ := (Bool.and_eq_true _ _).mp found
  obtain ⟨row, known, active⟩ := (Option.any_eq_true _ _).mp isAdmin
  have has := whole "ann" row known active
  simp [has] at without

/-- The provider says administrator and denies the scope; switching its authority
off leaves the role. -/
def deniedThenSwitchedOff : List Operation :=
  [.bootstrap "t0" 0, .acceptLink ⟨"t0", "root", some true⟩ 1, .setProviderMapping "idp" true,
    .setProviderAuthority "idp" true, .setProviderJit "idp" true,
    .completeSsoLogin "idp" "sub-1" "ann" (some ⟨.admin, [], [.admin]⟩),
    .setProviderAuthority "idp" false]

example : (execute (fun operation before => some (operation, Tables.run none before operation))
    deniedThenSwitchedOff Tables.empty).any (fun (_, final) =>
      (final.users "ann").any UserRow.activeAdmin && !final.hasFactor none "ann") = true := by
  decide +kernel

end

end Barycenter.Accounts
