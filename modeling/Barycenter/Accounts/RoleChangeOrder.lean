import Barycenter.Accounts.RoleChange

/-!
# Role changes take effect in their order

A receiver that has found its event to be newer holds the identity's row until
its transaction ends.  What it has read of the recorded number and, where no
other identity leads to the account, of the account is therefore still so at its
commit, and the accounts are those of a serial application of the accepted
events in the order of their commits.
-/

namespace Barycenter.Accounts.RoleChanges

/-! ## Accepted events -/

/-- An accepted event, with what the statements beside the account's row
answered. -/
structure Accepted where
  change : RoleChange
  answers : Answers
deriving DecidableEq, Repr

/-- One accepted event applied to the account; a refusal keeps it. -/
def serve (provider : Provider) (account : Account) (accepted : Accepted) : Account :=
  match applyIdp account.row (nextOf provider accepted.change account.row.role)
      accepted.answers.hasFactor accepted.answers.others with
  | .error _ => account
  | .ok (value, row) => applyTo account value row

def closingAt (event : Event World Label) : Option (RoleChange × Ending) :=
  match event.label with
  | .commit receiver =>
      match event.before.receivers receiver with
      | .closing change ending => some (change, ending)
      | _ => none
  | _ => none

def acceptedAt (event : Event World Label) : Option Accepted :=
  match closingAt event with
  | some (change, .refused _ answers _) => some ⟨change, answers⟩
  | some (change, .applied _ answers _ _) => some ⟨change, answers⟩
  | _ => none

/-- The accepted events of a run, in the order of their commits. -/
def acceptedOf (history : List (Event World Label)) : List Accepted :=
  history.filterMap acceptedAt

def acceptedFor (subject : String) (history : List (Event World Label)) : List Accepted :=
  (acceptedOf history).filter fun accepted => accepted.change.sub == subject

theorem acceptedOf_snoc (past : List (Event World Label)) (event : Event World Label) :
    acceptedOf (past ++ [event]) = acceptedOf past ++ (acceptedAt event).toList := by
  unfold acceptedOf
  rw [List.filterMap_append]
  cases found : acceptedAt event <;> simp [found]

/-! ## What a transaction still knows at its commit -/

def Alone (provider : Provider) (subject user : String) : Prop :=
  ∀ other, provider.link other = some user → other = subject

/-- The transaction holds the identity's row, and its event is newer than the
recorded one. -/
structure Newer (provider : Provider) (world : World) (receiver : Nat) (change : RoleChange) :
    Prop where
  signed : provider.signed change
  held : world.identityHeld change.sub = some receiver
  newer : stale (world.roleChangeTxn change.sub) change = false

/-- What a transaction of the receiver knows in each phase. -/
def Phase.Fits (provider : Provider) (world : World) (receiver : Nat) : Phase → Prop
  | .idle => True
  | .verified change | .remembered change => provider.signed change
  | .identified change user =>
      Newer provider world receiver change ∧ provider.link change.sub = some user
  | .mapped change user next =>
      Newer provider world receiver change ∧ provider.link change.sub = some user ∧
        (Alone provider change.sub user →
          next = nextOf provider change (world.accounts user).row.role)
  | .locked change user next row =>
      Newer provider world receiver change ∧ provider.link change.sub = some user ∧
        (Alone provider change.sub user →
          row = (world.accounts user).row ∧ next = nextOf provider change row.role)
  | .closing _ .replay | .closing _ .noIdentity | .closing _ .stale => True
  | .closing change (.ignored _) => Newer provider world receiver change
  | .closing change (.refused user answers _) =>
      Newer provider world receiver change ∧ provider.link change.sub = some user ∧
        (Alone provider change.sub user →
          serve provider (world.accounts user) ⟨change, answers⟩ = world.accounts user)
  | .closing change (.applied user answers value row) =>
      Newer provider world receiver change ∧ provider.link change.sub = some user ∧
        (Alone provider change.sub user →
          serve provider (world.accounts user) ⟨change, answers⟩ =
            applyTo (world.accounts user) value row)

def Fits (provider : Provider) (world : World) : Prop :=
  ∀ receiver, (world.receivers receiver).Fits provider world receiver

/-- A step of another transaction leaves what the receiver's locks protect. -/
structure Undisturbed (provider : Provider) (receiver : Nat) (before after : World) : Prop where
  recorded : ∀ subject, before.identityHeld subject = some receiver →
    after.identityHeld subject = some receiver ∧
      after.roleChangeTxn subject = before.roleChangeTxn subject
  account : ∀ subject user, before.identityHeld subject = some receiver →
    provider.link subject = some user → Alone provider subject user →
    after.accounts user = before.accounts user

section

variable {provider : Provider} {before after world : World} {receiver other : Nat}
  {change : RoleChange} {phase : Phase}

theorem Newer.undisturbed (newer : Newer provider before receiver change)
    (undisturbed : Undisturbed provider receiver before after) :
    Newer provider after receiver change := by
  obtain ⟨held, same⟩ := undisturbed.recorded _ newer.held
  exact ⟨newer.signed, held, same ▸ newer.newer⟩

theorem Newer.of_tables (newer : Newer provider before receiver change)
    (identityHeld : after.identityHeld = before.identityHeld)
    (roleChangeTxn : after.roleChangeTxn = before.roleChangeTxn) :
    Newer provider after receiver change :=
  ⟨newer.signed, by rw [identityHeld]; exact newer.held, by rw [roleChangeTxn]; exact newer.newer⟩

theorem Phase.Fits.undisturbed (fits : phase.Fits provider before receiver)
    (undisturbed : Undisturbed provider receiver before after) :
    phase.Fits provider after receiver := by
  cases phase with
  | idle => trivial
  | verified change | remembered change => exact fits
  | identified change user => exact ⟨fits.1.undisturbed undisturbed, fits.2⟩
  | mapped change user next | locked change user next row =>
      obtain ⟨newer, link, known⟩ := fits
      refine ⟨newer.undisturbed undisturbed, link, fun alone => ?_⟩
      rw [undisturbed.account _ _ newer.held link alone]
      exact known alone
  | closing change ending =>
      cases ending with
      | replay | noIdentity | stale => trivial
      | ignored why => exact Newer.undisturbed fits undisturbed
      | refused user answers why | applied user answers value row =>
          obtain ⟨newer, link, known⟩ := fits
          refine ⟨newer.undisturbed undisturbed, link, fun alone => ?_⟩
          rw [undisturbed.account _ _ newer.held link alone]
          exact known alone

/-- A step of one receiver keeps what every transaction knows, where the others
are undisturbed and its own next phase fits. -/
theorem Fits.of_step (fits : Fits provider before)
    (receivers : after.receivers = Function.update before.receivers receiver phase)
    (others : ∀ other, other ≠ receiver → Undisturbed provider other before after)
    (own : phase.Fits provider after receiver) : Fits provider after := by
  intro other
  rw [receivers]
  by_cases same : other = receiver
  · subst same
    simpa using own
  · rw [Function.update_of_ne same]
    exact (fits other).undisturbed (others other same)

/-- Where only locks are taken and the receiver goes on, the others are
undisturbed. -/
theorem undisturbed_of_tables
    (identityHeld : ∀ subject, before.identityHeld subject = some other →
      after.identityHeld subject = some other)
    (roleChangeTxn : after.roleChangeTxn = before.roleChangeTxn)
    (accounts : after.accounts = before.accounts) :
    Undisturbed provider other before after := by
  refine ⟨fun subject held => ⟨identityHeld subject held, by rw [roleChangeTxn]⟩, ?_⟩
  intro subject user _ _ _
  rw [accounts]

theorem Fits.goes (fits : Fits provider world)
    (own : phase.Fits provider (world.goes receiver phase) receiver) :
    Fits provider (world.goes receiver phase) :=
  fits.of_step rfl (fun _ _ => undisturbed_of_tables (fun _ held => held) rfl rfl) own

theorem fits_insertJti (fits : Fits provider world) (signed : provider.signed change)
    (stepped : insertJti world receiver change = some after) : Fits provider after := by
  unfold insertJti at stepped
  split at stepped
  · cases stepped
    exact fits.goes trivial
  · split at stepped
    · cases stepped
    · cases stepped
      exact fits.of_step rfl
        (fun _ _ => undisturbed_of_tables (fun _ held => held) rfl rfl) signed

theorem fits_lockIdentity (fits : Fits provider world) (signed : provider.signed change)
    (stepped : lockIdentity provider world receiver change = some after) :
    Fits provider after := by
  unfold lockIdentity at stepped
  cases linked : provider.link change.sub with
  | none =>
      simp only [linked, Option.some.injEq] at stepped
      subst stepped
      exact fits.goes trivial
  | some user =>
      simp only [linked] at stepped
      by_cases taken : (world.identityHeld change.sub).isSome = true
      · simp [taken] at stepped
      · have others : ∀ other, other ≠ receiver → ∀ subject,
            world.identityHeld subject = some other →
            Function.update world.identityHeld change.sub (some receiver) subject =
              some other := by
          intro other _ subject held
          have apart : subject ≠ change.sub := by
            rintro rfl
            simp [held] at taken
          rwa [Function.update_of_ne apart]
        simp only [taken, Bool.false_eq_true, if_false] at stepped
        by_cases old : stale (world.roleChangeTxn change.sub) change = true
        · simp only [old, if_true, Option.some.injEq] at stepped
          subst stepped
          exact fits.of_step rfl
            (fun other apart => undisturbed_of_tables (others other apart) rfl rfl) trivial
        · have newer : stale (world.roleChangeTxn change.sub) change = false := by simpa using old
          simp only [old, Bool.false_eq_true, if_false, Option.some.injEq] at stepped
          subst stepped
          refine fits.of_step rfl
            (fun other apart => undisturbed_of_tables (others other apart) rfl rfl)
            ⟨⟨signed, ?_, newer⟩, linked⟩
          simp [World.goes]

variable {user : String}

theorem fits_map (fits : Fits provider world) (newer : Newer provider world receiver change)
    (linked : provider.link change.sub = some user) :
    Fits provider (map provider world receiver change user) := by
  simp only [map]
  split
  · exact fits.goes (newer.of_tables rfl rfl)
  · split
    · exact fits.goes (newer.of_tables rfl rfl)
    · exact fits.goes ⟨newer.of_tables rfl rfl, linked, fun _ => rfl⟩

theorem fits_lockRow {next : IdpAuthority} (fits : Fits provider world)
    (newer : Newer provider world receiver change) (linked : provider.link change.sub = some user)
    (known : Alone provider change.sub user →
      next = nextOf provider change (world.accounts user).row.role)
    (stepped : lockRow world receiver change user next = some after) : Fits provider after := by
  unfold lockRow at stepped
  split at stepped
  · cases stepped
  · cases stepped
    exact fits.of_step rfl (fun _ _ => undisturbed_of_tables (fun _ held => held) rfl rfl)
      ⟨newer.of_tables rfl rfl, linked, fun alone => ⟨rfl, known alone⟩⟩

theorem fits_applyIdp {next : IdpAuthority} {row : UserRow} (answers : Answers)
    (fits : Fits provider world) (newer : Newer provider world receiver change)
    (linked : provider.link change.sub = some user) (known : Alone provider change.sub user →
      row = (world.accounts user).row ∧ next = nextOf provider change row.role) :
    Fits provider
      (world.goes receiver (.closing change (endingOf user next row answers))) := by
  apply fits.goes
  unfold endingOf
  cases outcome : applyIdp row next answers.hasFactor answers.others with
  | error why =>
      refine ⟨newer.of_tables rfl rfl, linked, fun alone => ?_⟩
      obtain ⟨rfl, rfl⟩ := known alone
      show serve provider (world.accounts user) ⟨change, answers⟩ = world.accounts user
      simp [serve, outcome]
  | ok changed =>
      obtain ⟨value, changedRow⟩ := changed
      refine ⟨newer.of_tables rfl rfl, linked, fun alone => ?_⟩
      obtain ⟨rfl, rfl⟩ := known alone
      show serve provider (world.accounts user) ⟨change, answers⟩ =
        applyTo (world.accounts user) value changedRow
      simp [serve, outcome]

/-! ## The end of a transaction -/

theorem released_of_held {held : String → Option Nat} {key : String}
    (mine : held key = some other) (apart : other ≠ receiver) :
    released held receiver key = some other := by
  unfold released
  rw [mine, if_neg]
  intro same
  exact apart (Option.some.inj same)

theorem undisturbed_by_commit {ending : Ending} (apart : other ≠ receiver)
    (fits : (Phase.closing change ending).Fits provider world receiver) :
    Undisturbed provider other world ((committed world change ending).ends receiver) := by
  have recorded : ∀ subject, Newer provider world receiver change →
      world.identityHeld subject = some other →
      Function.update world.roleChangeTxn change.sub (some change.txn) subject =
        world.roleChangeTxn subject := by
    intro subject newer held
    have different : subject ≠ change.sub := by
      rintro rfl
      rw [newer.held] at held
      exact apart (Option.some.inj held).symm
    rw [Function.update_of_ne different]
  cases ending with
  | replay | noIdentity | stale =>
      exact undisturbed_of_tables (fun _ held => released_of_held held apart) rfl rfl
  | ignored why =>
      exact ⟨fun subject held => ⟨released_of_held held apart, recorded subject fits held⟩,
        fun _ _ _ _ _ => rfl⟩
  | refused user answers why =>
      exact ⟨fun subject held => ⟨released_of_held held apart, recorded subject fits.1 held⟩,
        fun _ _ _ _ _ => rfl⟩
  | applied user answers value row =>
      obtain ⟨newer, linked, -⟩ := fits
      refine ⟨fun subject held => ⟨released_of_held held apart, recorded subject newer held⟩, ?_⟩
      intro subject elsewhere held link alone
      have different : elsewhere ≠ user := by
        rintro rfl
        have mine := newer.held
        rw [alone _ linked, held] at mine
        exact apart (Option.some.inj mine)
      show Function.update world.accounts user _ elsewhere = world.accounts elsewhere
      rw [Function.update_of_ne different]

theorem fits_commit {ending : Ending} (fits : Fits provider world)
    (own : (Phase.closing change ending).Fits provider world receiver) :
    Fits provider ((committed world change ending).ends receiver) := by
  have receivers : ((committed world change ending).ends receiver).receivers =
      Function.update world.receivers receiver .idle := by
    cases ending <;> rfl
  exact fits.of_step receivers (fun other apart => undisturbed_by_commit apart own) trivial

theorem fits_abort (fits : Fits provider world) : Fits provider (world.ends receiver) :=
  fits.of_step (show (world.ends receiver).receivers = Function.update _ _ .idle from rfl)
    (fun _ apart => undisturbed_of_tables (fun _ held => released_of_held held apart) rfl rfl)
    trivial

end

/-! ## One step -/

section

variable {provider : Provider} {before after world : World} {label : Label}

theorem fits_preserved (stepped : Steps provider before label after)
    (fits : Fits provider before) : Fits provider after := by
  unfold Steps at stepped
  cases label with simp only [act] at stepped
  | deliver receiver change now =>
      split at stepped
      · split at stepped
        · rename_i accepted
          cases stepped
          exact fits.goes accepted.1
        · cases stepped
      · cases stepped
  | insertJti receiver =>
      split at stepped
      · rename_i change phase
        have own := fits receiver
        rw [phase] at own
        exact fits_insertJti fits own stepped
      · cases stepped
  | lockIdentity receiver =>
      split at stepped
      · rename_i change phase
        have own := fits receiver
        rw [phase] at own
        exact fits_lockIdentity fits own stepped
      · cases stepped
  | map receiver =>
      split at stepped
      · rename_i change user phase
        have own := fits receiver
        rw [phase] at own
        cases stepped
        exact fits_map fits own.1 own.2
      · cases stepped
  | lockRow receiver =>
      split at stepped
      · rename_i change user next phase
        have own := fits receiver
        rw [phase] at own
        exact fits_lockRow fits own.1 own.2.1 own.2.2 stepped
      · cases stepped
  | applyIdp receiver answers =>
      split at stepped
      · rename_i change user next row phase
        have own := fits receiver
        rw [phase] at own
        cases stepped
        exact fits_applyIdp answers fits own.1 own.2.1 own.2.2
      · cases stepped
  | commit receiver =>
      split at stepped
      · rename_i change ending phase
        have own := fits receiver
        rw [phase] at own
        cases stepped
        exact fits_commit fits own
      · cases stepped
  | abort receiver =>
      split at stepped
      · cases stepped
      · cases stepped
        exact fits_abort fits
  | purgeExpired now =>
      simp only [act, Option.some.injEq] at stepped
      subst stepped
      intro receiver
      exact (fits receiver).undisturbed (undisturbed_of_tables (fun _ held => held) rfl rfl)

theorem tables_of_not_closing (stepped : Steps provider before label after)
    (open_ : closingAt ⟨before, label, after⟩ = none) :
    after.roleChangeTxn = before.roleChangeTxn ∧ after.accounts = before.accounts := by
  unfold Steps at stepped
  cases label with simp only [act] at stepped
  | deliver receiver change now =>
      split at stepped
      · split at stepped
        · cases stepped
          exact ⟨rfl, rfl⟩
        · cases stepped
      · cases stepped
  | insertJti receiver =>
      split at stepped
      · unfold insertJti at stepped
        split at stepped
        · cases stepped
          exact ⟨rfl, rfl⟩
        · split at stepped <;> cases stepped
          exact ⟨rfl, rfl⟩
      · cases stepped
  | lockIdentity receiver =>
      split at stepped
      · unfold lockIdentity at stepped
        split at stepped
        · cases stepped
          exact ⟨rfl, rfl⟩
        · split at stepped
          · cases stepped
          · split at stepped <;> cases stepped <;> exact ⟨rfl, rfl⟩
      · cases stepped
  | map receiver =>
      split at stepped
      · cases stepped
        simp only [map]
        split
        · exact ⟨rfl, rfl⟩
        · split <;> exact ⟨rfl, rfl⟩
      · cases stepped
  | lockRow receiver =>
      split at stepped
      · unfold lockRow at stepped
        split at stepped <;> cases stepped
        exact ⟨rfl, rfl⟩
      · cases stepped
  | applyIdp receiver answers | abort receiver =>
      split at stepped <;> cases stepped
      exact ⟨rfl, rfl⟩
  | commit receiver =>
      simp only [closingAt] at open_
      split at stepped
      · rename_i change ending phase
        simp [phase] at open_
      · cases stepped
  | purgeExpired now =>
      simp only [act, Option.some.injEq] at stepped
      subst stepped
      exact ⟨rfl, rfl⟩

theorem tables_of_closing {change : RoleChange} {ending : Ending}
    (stepped : Steps provider before label after) (fits : Fits provider before)
    (closing : closingAt ⟨before, label, after⟩ = some (change, ending)) :
    ∃ receiver, (Phase.closing change ending).Fits provider before receiver ∧
      after.roleChangeTxn = (committed before change ending).roleChangeTxn ∧
      after.accounts = (committed before change ending).accounts := by
  unfold closingAt at closing
  split at closing
  · rename_i receiver committing
    simp only at committing
    subst committing
    split at closing
    · rename_i found phase
      cases closing
      have own := fits receiver
      simp only at phase
      rw [phase] at own
      simp only [Steps, act, phase, Option.some.injEq] at stepped
      subst stepped
      exact ⟨receiver, own, rfl, rfl⟩
    · cases closing
  · cases closing

def Reached (recorded : Option Nat) (txn : Nat) : Prop :=
  ∃ now, recorded = some now ∧ txn ≤ now

theorem Reached.stale {recorded : Option Nat} {txn : Nat} {change : RoleChange}
    (reached : Reached recorded txn) (newer : stale recorded change = false) :
    txn < change.txn := by
  obtain ⟨now, rfl, atMost⟩ := reached
  simp only [RoleChanges.stale, decide_eq_false_iff_not, Nat.not_le] at newer
  omega

theorem reached_preserved (stepped : Steps provider before label after)
    (fits : Fits provider before) {subject : String} {txn : Nat}
    (reached : Reached (before.roleChangeTxn subject) txn) :
    Reached (after.roleChangeTxn subject) txn := by
  cases closing : closingAt ⟨before, label, after⟩ with
  | none => rwa [(tables_of_not_closing stepped closing).1]
  | some found =>
      obtain ⟨change, ending⟩ := found
      obtain ⟨receiver, own, same, -⟩ := tables_of_closing stepped fits closing
      rw [same]
      have raised : Newer provider before receiver change →
          Reached (Function.update before.roleChangeTxn change.sub (some change.txn) subject)
            txn := by
        intro newer
        by_cases here : subject = change.sub
        · subst here
          rw [Function.update_self]
          exact ⟨_, rfl, Nat.le_of_lt (reached.stale newer.newer)⟩
        · rwa [Function.update_of_ne here]
      cases ending with
      | replay | noIdentity | stale => exact reached
      | ignored why => exact raised own
      | refused user answers why | applied user answers value row => exact raised own.1

/-- An event that is accepted is newer than the recorded one, which it becomes;
where its identity alone leads to the account, the account is served. -/
theorem accepted_step {accepted : Accepted} (stepped : Steps provider before label after)
    (fits : Fits provider before)
    (acceptedNow : acceptedAt ⟨before, label, after⟩ = some accepted) :
    provider.signed accepted.change ∧
      stale (before.roleChangeTxn accepted.change.sub) accepted.change = false ∧
      after.roleChangeTxn accepted.change.sub = some accepted.change.txn ∧
      ∃ user, provider.link accepted.change.sub = some user ∧
        (Alone provider accepted.change.sub user →
          after.accounts user = serve provider (before.accounts user) accepted) ∧
        ∀ other, other ≠ user → after.accounts other = before.accounts other := by
  unfold acceptedAt at acceptedNow
  split at acceptedNow
  · rename_i change user answers why closing
    cases acceptedNow
    obtain ⟨receiver, ⟨newer, linked, known⟩, recorded, accounts⟩ :=
      tables_of_closing stepped fits closing
    rw [recorded, accounts]
    refine ⟨newer.signed, newer.newer, ?_, user, linked, fun alone => (known alone).symm,
      fun _ _ => rfl⟩
    simp [committed, World.records]
  · rename_i change user answers value row closing
    cases acceptedNow
    obtain ⟨receiver, ⟨newer, linked, known⟩, recorded, accounts⟩ :=
      tables_of_closing stepped fits closing
    rw [recorded, accounts]
    refine ⟨newer.signed, newer.newer, ?_, user, linked, fun alone => ?_, fun other apart => ?_⟩
    · simp [committed, World.records]
    · rw [known alone]
      simp [committed]
    · simp only [committed]
      rw [Function.update_of_ne apart]
  · cases acceptedNow

theorem accounts_of_not_accepted (stepped : Steps provider before label after)
    (fits : Fits provider before) (not : acceptedAt ⟨before, label, after⟩ = none) :
    after.accounts = before.accounts := by
  cases closing : closingAt ⟨before, label, after⟩ with
  | none => exact (tables_of_not_closing stepped closing).2
  | some found =>
      obtain ⟨change, ending⟩ := found
      obtain ⟨receiver, -, -, same⟩ := tables_of_closing stepped fits closing
      rw [same]
      cases ending with
      | replay | noIdentity | stale | ignored why => rfl
      | refused user answers why | applied user answers value row =>
          simp [acceptedAt, closing] at not

end

/-! ## Runs -/

section

variable {provider : Provider} {initial final : World} {history : List (Event World Label)}

/-- What holds of the past of a run and the state it has led to. -/
structure Serial (provider : Provider) (initial : World) (past : List (Event World Label))
    (world : World) : Prop where
  fits : Fits provider world
  signed : ∀ accepted ∈ acceptedOf past, provider.signed accepted.change
  ordered : (acceptedOf past).Pairwise fun first second =>
    first.change.sub = second.change.sub → first.change.txn < second.change.txn
  recorded : ∀ accepted ∈ acceptedOf past,
    Reached (world.roleChangeTxn accepted.change.sub) accepted.change.txn
  growing : ∀ subject txn, initial.roleChangeTxn subject = some txn →
    Reached (world.roleChangeTxn subject) txn
  later : ∀ accepted ∈ acceptedOf past, ∀ txn,
    initial.roleChangeTxn accepted.change.sub = some txn → txn < accepted.change.txn
  accounts : ∀ subject user, provider.link subject = some user →
    Alone provider subject user →
    world.accounts user =
      (acceptedFor subject past).foldl (serve provider) (initial.accounts user)

theorem serial_preserved {past : List (Event World Label)} {event : Event World Label}
    (stepped : Steps provider event.before event.label event.after)
    (serial : Serial provider initial past event.before) :
    Serial provider initial (past ++ [event]) event.after := by
  obtain ⟨before, label, after⟩ := event
  have fits := fits_preserved stepped serial.fits
  have reached : ∀ subject txn, Reached (before.roleChangeTxn subject) txn →
      Reached (after.roleChangeTxn subject) txn :=
    fun _ _ high => reached_preserved stepped serial.fits high
  cases found : acceptedAt ⟨before, label, after⟩ with
  | none =>
      have same : acceptedOf (past ++ [⟨before, label, after⟩]) = acceptedOf past := by
        simp [acceptedOf_snoc, found]
      have accounts := accounts_of_not_accepted stepped serial.fits found
      refine ⟨fits, ?_, ?_, ?_, ?_, ?_, ?_⟩
      · rw [same]
        exact serial.signed
      · rw [same]
        exact serial.ordered
      · rw [same]
        exact fun accepted member => reached _ _ (serial.recorded accepted member)
      · exact fun subject txn known => reached _ _ (serial.growing subject txn known)
      · rw [same]
        exact serial.later
      · intro subject user linked alone
        rw [accounts, acceptedFor, same]
        exact serial.accounts subject user linked alone
  | some accepted =>
      obtain ⟨signed, newer, recorded, user, linked, served, others⟩ :=
        accepted_step stepped serial.fits found
      have more : acceptedOf (past ++ [⟨before, label, after⟩]) = acceptedOf past ++ [accepted] := by
        simp [acceptedOf_snoc, found]
      refine ⟨fits, ?_, ?_, ?_, ?_, ?_, ?_⟩
      · rw [more]
        intro other member
        rcases List.mem_append.mp member with old | new
        · exact serial.signed other old
        · rw [List.mem_singleton.mp new]
          exact signed
      · rw [more, List.pairwise_append]
        refine ⟨serial.ordered, List.pairwise_singleton _ _, ?_⟩
        intro other old last new same
        obtain rfl := List.mem_singleton.mp new
        have before := serial.recorded other old
        rw [same] at before
        exact before.stale newer
      · rw [more]
        intro other member
        rcases List.mem_append.mp member with old | new
        · exact reached _ _ (serial.recorded other old)
        · rw [List.mem_singleton.mp new]
          exact ⟨_, recorded, Nat.le_refl _⟩
      · exact fun subject txn known => reached _ _ (serial.growing subject txn known)
      · rw [more]
        intro other member txn known
        rcases List.mem_append.mp member with old | new
        · exact serial.later other old txn known
        · obtain rfl := List.mem_singleton.mp new
          exact (serial.growing _ txn known).stale newer
      · intro subject someone link alone
        have settled := serial.accounts subject someone link alone
        simp only [acceptedFor] at settled ⊢
        rw [more, List.filter_append, List.foldl_append, ← settled]
        by_cases mine : accepted.change.sub = subject
        · subst mine
          rw [linked] at link
          cases link
          simpa using served alone
        · have apart : someone ≠ user := by
            rintro rfl
            exact mine (alone _ linked)
          simpa [mine] using others someone apart

theorem serial_of_run {idpSetJti roleChangeTxn : String → Option Nat}
    {accounts : String → Account}
    (run : Follows (Steps provider) (World.start idpSetJti roleChangeTxn accounts)
      history final) :
    Serial provider (World.start idpSetJti roleChangeTxn accounts) history final := by
  refine run.with_past (Serial provider _) ?_
    fun past event _ stepped serial => serial_preserved stepped serial
  exact ⟨fun _ => trivial, by simp [acceptedOf], by simp [acceptedOf], by simp [acceptedOf],
    fun _ txn known => ⟨txn, known, Nat.le_refl _⟩, by simp [acceptedOf],
    fun _ _ _ _ => by simp [acceptedFor, acceptedOf]⟩

/-- Along every run the accepted events of a subject have strictly increasing
transaction numbers, above the one recorded before the run; no id is accepted
twice; an account that one identity alone leads to is, with its sessions, what
applying that identity's accepted events one after another makes of it; and an
event that commits anything else changes no account. -/
theorem role_changes_take_effect_in_order {idpSetJti roleChangeTxn : String → Option Nat}
    {accounts : String → Account}
    (run : Follows (Steps provider) (World.start idpSetJti roleChangeTxn accounts)
      history final) :
    (∀ subject, ((acceptedFor subject history).Pairwise fun first second =>
        first.change.txn < second.change.txn) ∧
      ∀ accepted ∈ acceptedFor subject history, ∀ txn,
        roleChangeTxn subject = some txn → txn < accepted.change.txn) ∧
    ((acceptedOf history).map fun accepted => accepted.change.jti).Nodup ∧
    (∀ subject user, provider.link subject = some user → Alone provider subject user →
      final.accounts user =
        (acceptedFor subject history).foldl (serve provider) (accounts user)) ∧
    ∀ event ∈ history, acceptedAt event = none →
      event.after.accounts = event.before.accounts := by
  have serial := serial_of_run run
  refine ⟨fun subject => ⟨?_, ?_⟩, ?_, ?_, ?_⟩
  · rw [acceptedFor, List.pairwise_filter]
    refine serial.ordered.imp ?_
    intro first second ordered firstHere secondHere
    simp only [beq_iff_eq] at firstHere secondHere
    exact ordered (firstHere.trans secondHere.symm)
  · intro accepted member txn known
    rw [acceptedFor, List.mem_filter] at member
    obtain ⟨member, here⟩ := member
    simp only [beq_iff_eq] at here
    exact serial.later accepted member txn (here ▸ known)
  · rw [List.Nodup, List.pairwise_map]
    refine List.Pairwise.imp_of_mem ?_ serial.ordered
    intro first second firstMember secondMember ordered same
    obtain ⟨sub, txn⟩ := provider.identified _ _ (serial.signed _ firstMember)
      (serial.signed _ secondMember) same
    exact Nat.ne_of_lt (ordered sub) txn
  · exact serial.accounts
  · intro event member none
    obtain ⟨stepped, fits⟩ := @Follows.at_events _ _ _ _ _ _ (Fits provider) run
      (fun _ => trivial) (fun _ _ _ stepped fits => fits_preserved stepped fits) event member
    exact accounts_of_not_accepted stepped fits none

/-! ## Two receivers -/

def grantingOperator : RoleChange :=
  { sub := "sub-1", jti := "set-1", txn := 1, exp := 100, roles := ["operator"],
    entitlements := [] }

def takingAway : RoleChange :=
  { sub := "sub-1", jti := "set-2", txn := 2, exp := 100, roles := [], entitlements := [] }

def twoEvents : Provider where
  signed change := change == grantingOperator || change == takingAway
  identified := by
    simp only [Bool.or_eq_true, beq_iff_eq]
    rintro first second (rfl | rfl) (rfl | rfl) <;> simp [grantingOperator, takingAway]
  link subject := if subject = "sub-1" then some "ann" else none
  fromLists roles _ :=
    if roles.contains "operator" then some { role := .operator, grant := [], deny := [] }
    else none

def auditorAnn : Account :=
  { row :=
      { role := .auditor, idpGrant := [], idpDeny := [], status := .active,
        roleAuthority := .idp }
    idpAuthority := true
    sessions := ["session-1"] }

/-- The later event is committed first; the id of the earlier one is forgotten,
and it arrives again at an instance whose clock is behind. -/
def laterEventFirst : List Label :=
  [.deliver 0 takingAway 0, .deliver 1 grantingOperator 0, .insertJti 1, .insertJti 0,
    .lockIdentity 0, .map 0, .lockRow 0, .applyIdp 0 ⟨false, 1⟩, .commit 0,
    .lockIdentity 1, .commit 1, .purgeExpired 100001, .deliver 1 takingAway 99000,
    .insertJti 1, .lockIdentity 1, .commit 1]

theorem later_event_holds :
    ∃ history final,
      Follows (Steps twoEvents)
        (World.start (fun _ => none) (fun _ => none) fun _ => auditorAnn) history final ∧
      history.map Event.label = laterEventFirst ∧
      acceptedFor "sub-1" history = [⟨takingAway, ⟨false, 1⟩⟩] ∧
      final.accounts "ann" =
        (acceptedFor "sub-1" history).foldl (serve twoEvents) auditorAnn := by
  obtain ⟨history, final, run, labels, accepted⟩ := @follows_of_attempt _ _ (act twoEvents)
    (World.start (fun _ => none) (fun _ => none) fun _ => auditorAnn) laterEventFirst
    (fun (history, _) =>
      decide (acceptedFor "sub-1" history = [⟨takingAway, ⟨false, 1⟩⟩]))
    (by decide +kernel)
  refine ⟨history, final, run, labels, of_decide_eq_true accepted, ?_⟩
  refine (role_changes_take_effect_in_order run).2.2.1 "sub-1" "ann" rfl fun other linked => ?_
  by_contra apart
  simp [twoEvents, apart] at linked

end

end Barycenter.Accounts.RoleChanges
