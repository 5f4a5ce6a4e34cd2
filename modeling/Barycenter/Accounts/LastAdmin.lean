import Barycenter.Accounts.RowLocks

/-!
# The last administrator

A change that takes an administrator away has counted another one.  Where that
other one's row is among those the transaction holds, nobody changes it before
the commit, and an administrator stays.  The clearing counts nobody, so that it
has to find an administrator whom it leaves.
-/

namespace Barycenter.Accounts.RowLocks

/-! ## The property and the condition -/

def HasAdmin (tables : Tables) : Prop :=
  ∃ user ∈ tables.userIds, ∃ row ∈ tables.users user, row.activeAdmin = true

/-- A row of another active administrator is among those that the transaction
holds. -/
def World.holdsOther (world : World) (transaction : Nat) (user : String) : Prop :=
  ∃ other ∈ world.tables.userIds, other ≠ user ∧ world.held other = some transaction ∧
    (world.tables.users other).any UserRow.activeAdmin = true

def takesAway (old new : UserRow) : Bool := old.activeAdmin && !new.activeAdmin

/-- A change that takes an administrator away holds the row of another one. -/
def World.JudgesSafely (idpMfa : Option String) (world : World) (transaction : Nat) : Prop :=
  match world.transactions transaction with
  | .judging change read =>
      ∀ new ∈ change.outcome read (world.tables.hasFactor idpMfa change.user)
          (world.tables.others change.user),
        takesAway read.row new = true → world.holdsOther transaction change.user
  | _ => True

/-- Among the active accounts, one has the administrator's role if it is cleared,
and the administrator's scope if it is not. -/
def World.LeavesAdmin (world : World) (cleared : List String) : Prop :=
  ∃ user ∈ world.tables.userIds, ∃ row ∈ world.tables.users user, row.status = .active ∧
    if cleared.contains user then row.role = .admin else ADMIN_SQL row = true

def World.ClearsSafely (world : World) (transaction : Nat) : Prop :=
  match world.transactions transaction with
  | .settling _ _ _ cleared => HasAdmin world.tables → world.LeavesAdmin cleared
  | _ => True

def Mindful (idpMfa : Option String) (event : Event World Label) : Prop :=
  match event.label with
  | .judge transaction => event.before.JudgesSafely idpMfa transaction
  | .commit transaction => event.before.ClearsSafely transaction
  | _ => True

/-! ## What a transaction knows while it holds its rows -/

def Phase.Fits (world : World) (transaction : Nat) : Phase → Prop
  | .judging change read =>
      world.held change.user = some transaction ∧
        world.tables.users change.user = some read.row
  | .writing user old new =>
      world.held user = some transaction ∧ world.tables.users user = some old ∧
        (takesAway old new = true → world.holdsOther transaction user)
  | .settling _ _ _ cleared => ∀ user ∈ cleared, world.held user = some transaction
  | _ => True

structure Locked (world : World) : Prop where
  listed : ∀ user row, world.tables.users user = some row → user ∈ world.tables.userIds
  rows : ∀ user transaction, world.held user = some transaction →
    ∃ row, world.tables.users user = some row
  fits : ∀ transaction, (world.transactions transaction).Fits world transaction

/-- The rows that the transaction holds stay, and stay its own. -/
structure Undisturbed (transaction : Nat) (before after : World) : Prop where
  userIds : ∀ user ∈ before.tables.userIds, user ∈ after.tables.userIds
  rows : ∀ user, before.held user = some transaction →
    after.held user = some transaction ∧ after.tables.users user = before.tables.users user

section

variable {idpMfa : Option String} {world before after : World} {transaction other : Nat}
  {user : String} {phase : Phase}

theorem World.holdsOther.undisturbed (holds : before.holdsOther transaction user)
    (undisturbed : Undisturbed transaction before after) :
    after.holdsOther transaction user := by
  obtain ⟨someone, listed, apart, held, active⟩ := holds
  obtain ⟨stays, same⟩ := undisturbed.rows someone held
  exact ⟨someone, undisturbed.userIds someone listed, apart, stays, same ▸ active⟩

theorem Phase.Fits.undisturbed (fits : phase.Fits before transaction)
    (undisturbed : Undisturbed transaction before after) : phase.Fits after transaction := by
  cases phase with
  | idle | locking change waiting | opened clearing => trivial
  | judging change read =>
      obtain ⟨stays, same⟩ := undisturbed.rows _ fits.1
      exact ⟨stays, same ▸ fits.2⟩
  | writing user old new =>
      obtain ⟨stays, same⟩ := undisturbed.rows _ fits.1
      exact ⟨stays, same ▸ fits.2.1, fun takes => (fits.2.2 takes).undisturbed undisturbed⟩
  | settling clearing snapshot waiting cleared =>
      exact fun user member => (undisturbed.rows user (fits user member)).1

/-- A step of one transaction keeps the invariant, where the others are
undisturbed and its own next phase fits. -/
theorem Locked.of_step (locked : Locked before)
    (transactions : after.transactions =
      Function.update before.transactions transaction phase)
    (listed : ∀ user row, after.tables.users user = some row → user ∈ after.tables.userIds)
    (rows : ∀ user transaction, after.held user = some transaction →
      ∃ row, after.tables.users user = some row)
    (others : ∀ other, other ≠ transaction → Undisturbed other before after)
    (own : phase.Fits after transaction) : Locked after := by
  refine ⟨listed, rows, fun other => ?_⟩
  rw [transactions]
  by_cases same : other = transaction
  · subst same
    simpa using own
  · rw [Function.update_of_ne same]
    exact (locked.fits other).undisturbed (others other same)

theorem Locked.goes (locked : Locked world) (own : phase.Fits world transaction) :
    Locked (world.goes transaction phase) := by
  refine locked.of_step rfl locked.listed locked.rows
    (fun _ _ => ⟨fun _ listed => listed, fun _ held => ⟨held, rfl⟩⟩) ?_
  exact own.undisturbed ⟨fun _ listed => listed, fun _ held => ⟨held, rfl⟩⟩

theorem World.free_apart (free : world.free transaction user = true) (apart : other ≠ transaction)
    {row : String} (held : world.held row = some other) :
    (world.holds transaction user).held row = some other := by
  have different : row ≠ user := by
    rintro rfl
    simp only [World.free, held, Bool.or_eq_true, beq_iff_eq, reduceCtorEq, Option.some.injEq,
      false_or] at free
    exact apart free
  simpa [World.holds, Function.update_of_ne different] using held

theorem Locked.holds (locked : Locked world) {row : UserRow}
    (known : world.tables.users user = some row)
    (free : world.free transaction user = true)
    (own : phase.Fits (world.holds transaction user) transaction) :
    Locked ((world.holds transaction user).goes transaction phase) := by
  refine locked.of_step rfl locked.listed ?_ ?_ ?_
  · intro someone holder held
    by_cases same : someone = user
    · exact ⟨row, by rw [same]; exact known⟩
    · simp only [World.goes, World.holds, Function.update_of_ne same] at held
      exact locked.rows someone holder held
  · intro other apart
    exact ⟨fun _ listed => listed, fun _ held => ⟨World.free_apart free apart held, rfl⟩⟩
  · exact own.undisturbed ⟨fun _ listed => listed, fun _ held => ⟨held, rfl⟩⟩

theorem World.held_of_ends {holder : Nat}
    (held : (world.ends transaction).held user = some holder) :
    world.held user = some holder := by
  simp only [World.ends] at held
  split at held
  · cases held
  · exact held

theorem World.ends_held (held : world.held user = some other) (apart : other ≠ transaction) :
    (world.ends transaction).held user = some other := by
  have different : world.held user ≠ some transaction := by
    rw [held]
    exact fun same => apart (Option.some.inj same)
  simpa [World.ends, different] using held

theorem Locked.ends {tables : Tables} (locked : Locked world)
    (userIds : tables.userIds = world.tables.userIds)
    (listed : ∀ user row, tables.users user = some row →
      ∃ old, world.tables.users user = some old)
    (kept : ∀ user row, world.tables.users user = some row →
      ∃ new, tables.users user = some new)
    (mine : ∀ user, world.held user ≠ some transaction →
      tables.users user = world.tables.users user) :
    Locked (({ world with tables := tables } : World).ends transaction) := by
  refine @Locked.of_step world _ transaction .idle locked rfl ?_ ?_ ?_ trivial
  · intro user row known
    obtain ⟨old, was⟩ := listed user row known
    show user ∈ tables.userIds
    rw [userIds]
    exact locked.listed user old was
  · intro user holder held
    obtain ⟨row, known⟩ := locked.rows user holder (World.held_of_ends held)
    exact kept user row known
  · intro other apart
    refine ⟨fun user listed => ?_, fun user held => ⟨World.ends_held held apart, ?_⟩⟩
    · show user ∈ tables.userIds
      rwa [userIds]
    · refine mine user ?_
      rw [held]
      exact fun same => apart (Option.some.inj same)

theorem locked_lockRow (locked : Locked world)
    (stepped : world.lockRow transaction user = some after) : Locked after := by
  unfold World.lockRow at stepped
  split at stepped
  · cases stepped
  rename_i row known
  split at stepped
  · cases stepped
  rename_i isFree
  have free : world.free transaction user = true := by simpa using isFree
  split at stepped
  · split at stepped
    · cases stepped
      exact locked.holds known free trivial
    · cases stepped
  · rename_i clearing snapshot waiting cleared phase
    have own := locked.fits transaction
    rw [phase] at own
    split at stepped
    · cases stepped
      refine locked.holds known free fun someone member => ?_
      by_cases same : someone = user
      · simp [World.holds, same]
      · have before : someone ∈ cleared := by
          split at member
          · simpa [same] using member
          · exact member
        simpa [World.holds, Function.update_of_ne same] using own someone before
    · cases stepped
  · cases stepped

theorem Locked.finished (locked : Locked world) : Locked (world.ends transaction) :=
  @Locked.ends world transaction world.tables locked rfl (fun _ row known => ⟨row, known⟩)
    (fun _ row known => ⟨row, known⟩) fun _ _ => rfl

theorem locked_readRow (locked : Locked world)
    (stepped : world.readRow transaction = some after) : Locked after := by
  unfold World.readRow at stepped
  split at stepped
  · rename_i change phase
    split at stepped
    · cases stepped
      exact locked.finished
    · rename_i row known
      split at stepped
      · cases stepped
      · rename_i isFree
        cases stepped
        have free : world.free transaction change.user = true := by simpa using isFree
        refine locked.holds known free ⟨?_, known⟩
        simp [World.holds]
  · cases stepped

theorem locked_judge (locked : Locked world) (mindful : world.JudgesSafely idpMfa transaction)
    (stepped : world.judge idpMfa transaction = some after) : Locked after := by
  unfold World.judge at stepped
  split at stepped
  · rename_i change read phase
    have own := locked.fits transaction
    rw [phase] at own
    simp only [World.JudgesSafely, phase] at mindful
    split at stepped
    · cases stepped
      exact locked.finished
    · rename_i new decided
      cases stepped
      exact locked.goes ⟨own.1, own.2, mindful new decided⟩
  · cases stepped

theorem locked_commit (locked : Locked world)
    (stepped : world.commit transaction = some after) : Locked after := by
  unfold World.commit at stepped
  split at stepped
  · rename_i user old new phase
    obtain ⟨held, known, -⟩ : (Phase.writing user old new).Fits world transaction :=
      phase ▸ locked.fits transaction
    cases stepped
    refine locked.ends rfl ?_ ?_ ?_
    · intro someone row found
      by_cases same : someone = user
      · exact ⟨old, by rw [same]; exact known⟩
      · exact ⟨row, by simpa [Tables.setUser, Function.update_of_ne same] using found⟩
    · intro someone row found
      by_cases same : someone = user
      · exact ⟨new, by simp [Tables.setUser, same]⟩
      · exact ⟨row, by simpa [Tables.setUser, Function.update_of_ne same] using found⟩
    · intro someone notMine
      have apart : someone ≠ user := by
        rintro rfl
        exact notMine held
      simp [Tables.setUser, Function.update_of_ne apart]
  · rename_i clearing snapshot cleared phase
    have own : (Phase.settling clearing snapshot [] cleared).Fits world transaction :=
      phase ▸ locked.fits transaction
    have users : (clearing.opened world.tables).users = world.tables.users := by
      cases clearing <;> rfl
    have userIds : (clearing.opened world.tables).userIds = world.tables.userIds := by
      cases clearing <;> rfl
    cases stepped
    refine locked.ends userIds ?_ ?_ ?_
    · intro someone row found
      simp only [clearRows, users] at found
      split at found
      · obtain ⟨old, was, -⟩ := Option.map_eq_some_iff.mp found
        exact ⟨old, was⟩
      · exact ⟨row, found⟩
    · intro someone row found
      simp only [clearRows, users, found]
      split
      · exact ⟨row.cleared, rfl⟩
      · exact ⟨row, rfl⟩
    · intro someone notMine
      have apart : ¬ cleared.contains someone = true := by
        intro member
        exact notMine (own someone (by simpa using member))
      simp only [clearRows, users]
      rw [if_neg apart]
  · cases stepped

theorem locked_enrol {role : Role} (locked : Locked world)
    (absent : world.tables.users user = none) :
    Locked { world with tables := world.tables.addUser user role } := by
  have other : ∀ {someone : String} {row : UserRow}, world.tables.users someone = some row →
      (world.tables.addUser user role).users someone = some row := by
    intro someone row known
    have apart : someone ≠ user := by
      rintro rfl
      rw [absent] at known
      cases known
    simpa [Tables.addUser, Function.update_of_ne apart] using known
  have undisturbed : ∀ transaction, Undisturbed transaction world
      { world with tables := world.tables.addUser user role } := by
    refine fun transaction => ⟨fun someone listed => List.mem_append_left _ listed, ?_⟩
    intro someone held
    obtain ⟨row, known⟩ := locked.rows someone transaction held
    exact ⟨held, (other known).trans known.symm⟩
  refine ⟨?_, ?_, fun transaction => (locked.fits transaction).undisturbed (undisturbed _)⟩
  · intro someone row found
    by_cases same : someone = user
    · simp [Tables.addUser, same]
    · simp only [Tables.addUser, Function.update_of_ne same] at found
      exact List.mem_append_left _ (locked.listed someone row found)
  · intro someone holder held
    obtain ⟨row, known⟩ := locked.rows someone holder held
    exact ⟨row, other known⟩

theorem Locked.of_rows (locked : Locked before) (userIds : after.tables.userIds = before.tables.userIds)
    (users : after.tables.users = before.tables.users) (held : after.held = before.held)
    (transactions : after.transactions = before.transactions) : Locked after := by
  have undisturbed : ∀ transaction, Undisturbed transaction before after := by
    refine fun transaction => ⟨fun user listed => by rwa [userIds], fun user mine => ?_⟩
    rw [held, users]
    exact ⟨mine, rfl⟩
  refine ⟨?_, ?_, fun transaction => ?_⟩
  · rw [users, userIds]
    exact locked.listed
  · rw [users, held]
    exact locked.rows
  · rw [transactions]
    exact (locked.fits transaction).undisturbed (undisturbed _)

theorem locked_preserved {label : Label} (stepped : Steps idpMfa before label after)
    (mindful : Mindful idpMfa ⟨before, label, after⟩) (locked : Locked before) :
    Locked after := by
  unfold Steps at stepped
  cases label with simp only [act] at stepped
  | lockAdmins transaction change =>
      split at stepped
      · cases stepped
        exact locked.goes trivial
      · cases stepped
  | lockRow transaction user => exact locked_lockRow locked stepped
  | readRow transaction => exact locked_readRow locked stepped
  | judge transaction => exact locked_judge locked mindful stepped
  | openClearing transaction clearing =>
      split at stepped
      · split at stepped
        · cases stepped
          exact locked.goes trivial
        · cases stepped
      · cases stepped
  | settleLocal transaction =>
      split at stepped
      · cases stepped
        exact locked.goes fun user member => absurd member List.not_mem_nil
      · cases stepped
  | commit transaction => exact locked_commit locked stepped
  | abort transaction =>
      simp only [act, Option.some.injEq] at stepped
      subst stepped
      exact locked.finished
  | switchAuthorityOn issuer =>
      split at stepped
      · rename_i tables switched
        cases stepped
        simp only [Tables.setProviderAuthority] at switched
        split at switched
        · cases switched
        · cases switched
          exact locked.of_rows rfl rfl rfl rfl
      · cases stepped
  | enrol user role =>
      split at stepped
      · cases stepped
      · rename_i absent
        cases stepped
        exact locked_enrol locked absent
  | elsewhere mfaTotp identities providers =>
      simp only [act, Option.some.injEq] at stepped
      subst stepped
      exact locked.of_rows rfl rfl rfl rfl

/-! ## An administrator stays -/

theorem HasAdmin.of_users {old new : Tables} (has : HasAdmin old)
    (userIds : new.userIds = old.userIds) (users : new.users = old.users) : HasAdmin new := by
  unfold HasAdmin at has ⊢
  rwa [userIds, users]

theorem hasAdmin_commit (locked : Locked world) (mindful : world.ClearsSafely transaction)
    (stepped : world.commit transaction = some after) (has : HasAdmin world.tables) :
    HasAdmin after.tables := by
  unfold World.commit at stepped
  split at stepped
  · rename_i user old new phase
    obtain ⟨held, was, safe⟩ : (Phase.writing user old new).Fits world transaction :=
      phase ▸ locked.fits transaction
    cases stepped
    have elsewhere : ∀ someone row, someone ≠ user → world.tables.users someone = some row →
        row.activeAdmin = true → HasAdmin (world.tables.setUser user new) := by
      intro someone row apart found isAdmin
      exact ⟨someone, locked.listed someone row found, row,
        by simpa [Tables.setUser, Function.update_of_ne apart] using found, isAdmin⟩
    obtain ⟨admin, listed, row, known, active⟩ := has
    by_cases same : admin = user
    · subst same
      obtain rfl : old = row := Option.some.inj (was.symm.trans known)
      by_cases stays : new.activeAdmin = true
      · exact ⟨admin, listed, new, by simp [Tables.setUser, World.ends], stays⟩
      · have takes : takesAway old new = true := by simp [takesAway, active, stays]
        obtain ⟨other, -, apart, -, isAdmin⟩ := safe takes
        obtain ⟨row, found, rowActive⟩ := (Option.any_eq_true _ _).mp isAdmin
        exact elsewhere other row apart found rowActive
    · exact elsewhere admin row same known active
  · rename_i clearing snapshot cleared phase
    simp only [World.ClearsSafely, phase] at mindful
    obtain ⟨user, listed, row, found, isActive, keeps⟩ := mindful has
    have users : (clearing.opened world.tables).users = world.tables.users := by
      cases clearing <;> rfl
    have userIds : (clearing.opened world.tables).userIds = world.tables.userIds := by
      cases clearing <;> rfl
    cases stepped
    by_cases member : cleared.contains user = true
    · rw [if_pos member] at keeps
      refine ⟨user, userIds.symm ▸ listed, row.cleared, ?_, ?_⟩
      · simp only [World.ends, clearRows, users, if_pos member]
        rw [show world.tables.users user = some row from found]
        rfl
      · rw [UserRow.activeAdmin_iff, ADMIN_SQL_cleared]
        exact ⟨by simp [keeps], isActive⟩
    · rw [if_neg member] at keeps
      refine ⟨user, userIds.symm ▸ listed, row, ?_,
        UserRow.activeAdmin_iff.mpr ⟨keeps, isActive⟩⟩
      simp only [World.ends, clearRows, users, if_neg member]
      exact found
  · cases stepped

theorem hasAdmin_preserved {label : Label} (stepped : Steps idpMfa before label after)
    (mindful : Mindful idpMfa ⟨before, label, after⟩) (locked : Locked before)
    (has : HasAdmin before.tables) : HasAdmin after.tables := by
  unfold Steps at stepped
  cases label with simp only [act] at stepped
  | lockAdmins transaction change | settleLocal transaction =>
      split at stepped <;> cases stepped
      exact has
  | lockRow transaction user =>
      simp only [act, World.lockRow] at stepped
      split at stepped
      · cases stepped
      split at stepped
      · cases stepped
      split at stepped
      · split at stepped <;> cases stepped
        exact has
      · split at stepped <;> cases stepped
        exact has
      · cases stepped
  | readRow transaction =>
      simp only [act, World.readRow] at stepped
      split at stepped
      · split at stepped
        · cases stepped
          exact has
        · split at stepped <;> cases stepped
          exact has
      · cases stepped
  | judge transaction =>
      simp only [act, World.judge] at stepped
      split at stepped
      · split at stepped <;> cases stepped <;> exact has
      · cases stepped
  | openClearing transaction clearing =>
      split at stepped
      · split at stepped <;> cases stepped
        exact has
      · cases stepped
  | commit transaction => exact hasAdmin_commit locked mindful stepped has
  | abort transaction =>
      simp only [act, Option.some.injEq] at stepped
      subst stepped
      exact has
  | switchAuthorityOn issuer =>
      split at stepped
      · rename_i tables switched
        cases stepped
        simp only [Tables.setProviderAuthority] at switched
        split at switched <;> cases switched
        exact has.of_users rfl rfl
      · cases stepped
  | enrol user role =>
      split at stepped
      · cases stepped
      · rename_i absent
        cases stepped
        obtain ⟨admin, listed, row, known, active⟩ := has
        have apart : admin ≠ user := by
          rintro rfl
          rw [absent] at known
          cases known
        exact ⟨admin, List.mem_append_left _ listed, row,
          by simpa [Tables.addUser, Function.update_of_ne apart] using known, active⟩
  | elsewhere mfaTotp identities providers =>
      simp only [act, Option.some.injEq] at stepped
      subst stepped
      exact has.of_users rfl rfl

end

/-! ## Runs -/

section

variable {idpMfa : Option String} {final : World} {history : List (Event World Label)}

theorem locked_start : Locked (World.start .empty) := by
  refine ⟨?_, ?_, fun _ => trivial⟩
  · intro user row known
    cases known
  · intro user transaction held
    cases held

/-- In every run whose steps all are mindful, the store keeps an administrator
from the first moment it has one. -/
theorem an_administrator_stays
    (run : Follows (Steps idpMfa) (World.start .empty) history final)
    (mindful : ∀ event ∈ history, Mindful idpMfa event) :
    (∀ event ∈ history, HasAdmin event.after.tables → HasAdmin final.tables) ∧
      history.Pairwise fun first second =>
        HasAdmin first.after.tables → HasAdmin second.before.tables :=
  ((run.among mindful).lasting Locked (fun world => HasAdmin world.tables) locked_start
    (fun _ _ _ stepped locked => locked_preserved stepped.1 stepped.2 locked)
    fun _ _ _ stepped locked has => hasAdmin_preserved stepped.1 stepped.2 locked has).2

instance (world : World) (transaction : Nat) (user : String) :
    Decidable (world.holdsOther transaction user) := by
  unfold World.holdsOther
  infer_instance

instance (tables : Tables) : Decidable (HasAdmin tables) := by
  unfold HasAdmin
  infer_instance

instance (world : World) (cleared : List String) : Decidable (world.LeavesAdmin cleared) := by
  unfold World.LeavesAdmin
  infer_instance

instance (idpMfa : Option String) (event : Event World Label) :
    Decidable (Mindful idpMfa event) := by
  unfold Mindful
  split
  · unfold World.JudgesSafely
    split <;> infer_instance
  · unfold World.ClearsSafely
    split <;> infer_instance
  · infer_instance

def toOperator : UserPatch := ⟨some .operator, none, none⟩

/-- Two administrators at the same time, one demoted and the other deleted. -/
def demotedAndDeleted : List Label :=
  [.enrol "root" .admin, .enrol "bob" .admin, .lockAdmins 0 (.updateUser "bob" toOperator),
    .lockAdmins 1 (.deleteUser "root"), .lockRow 0 "root", .lockRow 0 "bob", .readRow 0,
    .judge 0, .commit 0, .lockRow 1 "root", .lockRow 1 "bob", .readRow 1, .judge 1]

theorem an_administrator_stays_of_two :
    ∃ history final, Follows (Steps none) (World.start .empty) history final ∧
      history.map Event.label = demotedAndDeleted ∧ HasAdmin final.tables := by
  obtain ⟨history, final, run, labels, holds⟩ := @follows_of_attempt _ _ (act none)
    (World.start .empty) demotedAndDeleted
    (fun (history, _) => decide ((∀ event ∈ history, Mindful none event) ∧
      ∃ event ∈ history, HasAdmin event.after.tables))
    (by decide +kernel)
  obtain ⟨mindful, event, member, has⟩ := of_decide_eq_true holds
  exact ⟨history, final, run, labels, (an_administrator_stays run mindful).1 event member has⟩

/-- The provider grants the scope to an auditor, and its authority is switched
off. -/
def grantedThenSwitchedOff : List Label :=
  [.enrol "ann" .auditor,
    .elsewhere (fun user => if user = "ann" then some true else none) [⟨"idp", "sub-1", "ann"⟩]
      (fun issuer => if issuer = "idp" then some ⟨true, true, true⟩ else none),
    .lockAdmins 0 (.applyIdp "ann" ⟨.auditor, [.admin], []⟩), .readRow 0, .judge 0, .commit 0,
    .openClearing 1 (.authorityOff "idp"), .settleLocal 1, .lockRow 1 "ann", .commit 1]

theorem no_administrator_is_left :
    ∃ history final, Follows (Steps none) (World.start .empty) history final ∧
      history.map Event.label = grantedThenSwitchedOff ∧
      (∃ event ∈ history, HasAdmin event.after.tables) ∧ ¬ HasAdmin final.tables := by
  obtain ⟨history, final, run, labels, holds⟩ := @follows_of_attempt _ _ (act none)
    (World.start .empty) grantedThenSwitchedOff
    (fun (history, final) => decide ((∃ event ∈ history, HasAdmin event.after.tables) ∧
      ¬ HasAdmin final.tables))
    (by decide +kernel)
  exact ⟨history, final, run, labels, of_decide_eq_true holds⟩

def confirmedTotp (users : List String) (user : String) : Option Bool :=
  if users.contains user then some true else none

def toAdmin : UserPatch := ⟨some .admin, none, none⟩

/-- Transactions 1 and 4 have looked for administrators when there was only `x`;
when 1 goes on, its snapshot and that of 2 have no row in common. -/
def staleSnapshots : List Label :=
  [.enrol "x" .admin, .enrol "a" .auditor, .enrol "b" .auditor,
    .elsewhere (confirmedTotp ["a", "b"]) [] (fun _ => none),
    .lockAdmins 0 (.updateUser "a" toAdmin), .lockRow 0 "x", .readRow 0, .judge 0,
    .lockAdmins 4 (.updateUser "x" toOperator), .lockAdmins 1 (.updateUser "b" toOperator),
    .commit 0, .lockRow 4 "x", .readRow 4, .judge 4, .commit 4,
    .lockAdmins 3 (.updateUser "b" toAdmin), .lockRow 3 "a", .readRow 3, .judge 3,
    .lockAdmins 2 (.updateUser "a" toOperator), .commit 3, .lockRow 2 "a", .readRow 2,
    .lockRow 1 "x", .readRow 1, .judge 1, .judge 2, .commit 1, .commit 2]

/-- Without any clearing, two demotions that each counted the other's account. -/
example : (execute (fun label world => (act none world label).map (label, ·)) staleSnapshots
    (World.start .empty)).any (fun (_, final) => !decide (HasAdmin final.tables)) = true := by
  decide +kernel

end

end Barycenter.Accounts.RowLocks
