import Barycenter.Accounts.LinkTransactions

/-!
# One-time links work once

A link that is used, revoked or superseded stays closed, and a token that a
resent link had belongs to no open link any more.  An acceptance that commits has
found its link open and unexpired, and holds it from then on.  A newer recovery
link holds the account, so that no other link for it comes in between while the
older ones are closed.
-/

namespace Barycenter.Accounts.Links

/-! ## What a write does to a row -/

/-- A row that is changed where a condition holds is a changed row or the old one. -/
theorem changed_cases {α : Type} {condition : Prop} [Decidable condition] {old : Option α}
    {change : α → α} {row : α}
    (written : (if condition then old.map change else old) = some row) :
    ∃ before, old = some before ∧ (condition ∧ row = change before ∨ ¬condition ∧ row = before) := by
  split_ifs at written with holds
  · obtain ⟨before, found, rfl⟩ := Option.map_eq_some_iff.mp written
    exact ⟨before, found, .inl ⟨holds, rfl⟩⟩
  · exact ⟨row, written, .inr ⟨holds, rfl⟩⟩

/-- A link goes on as the link of the same account, and stays closed. -/
structure Continues (outcome : Outcome) (drawn id : Nat) (before link : Link) : Prop where
  owner : link.forUser = before.forUser
  closed : before.closed = true → link.closed = true
  token : link.token = before.token ∨
    link.token = drawn ∧ ∃ expiresAt, outcome = .resent id expiresAt

variable {id drawn : Nat} {link : Link} {outcome : Outcome}

theorem onLink_cases {old : Option Link} (written : outcome.onLink drawn id old = some link) :
    (id = drawn ∧ ∃ draft closing, outcome = .created draft closing ∧ link = draft.link drawn) ∨
      ∃ before, old = some before ∧ Continues outcome drawn id before link := by
  cases outcome with
  | created draft closing =>
      by_cases new : id = drawn
      · simp only [Outcome.onLink, if_pos new, Option.some.injEq] at written
        exact .inl ⟨new, draft, closing, rfl, written.symm⟩
      · simp only [Outcome.onLink, if_neg new] at written
        obtain ⟨before, found, ⟨-, rfl⟩ | ⟨-, rfl⟩⟩ := changed_cases written
        · exact .inr ⟨before, found, rfl, by simp [Link.closed], .inl rfl⟩
        · exact .inr ⟨link, found, rfl, fun closed => closed, .inl rfl⟩
  | resent other expiresAt =>
      obtain ⟨before, found, ⟨rfl, rfl⟩ | ⟨-, rfl⟩⟩ := changed_cases written
      · exact .inr ⟨before, found, rfl, by simp [Link.closed], .inr ⟨rfl, expiresAt, rfl⟩⟩
      · exact .inr ⟨link, found, rfl, fun closed => closed, .inl rfl⟩
  | revoked other | accepted other token began read user account =>
      obtain ⟨before, found, ⟨-, rfl⟩ | ⟨-, rfl⟩⟩ := changed_cases written
      · exact .inr ⟨before, found, rfl, by simp [Link.closed], .inl rfl⟩
      · exact .inr ⟨link, found, rfl, fun closed => closed, .inl rfl⟩
  | requested change closing => exact .inr ⟨link, written, rfl, fun closed => closed, .inl rfl⟩
  | confirmed token began user account =>
      exact .inr ⟨link, written, rfl, fun closed => closed, .inl rfl⟩

theorem onLink_other {old : Option Link} (known : id < drawn) (apart : Row.link id ∉ outcome.rows) :
    outcome.onLink drawn id old = old := by
  have new : id ≠ drawn := Nat.ne_of_lt known
  cases outcome <;> simp_all [Outcome.onLink, Outcome.rows]

variable {token : Nat}

theorem onChange_cases {old : Option EmailChange} {change : EmailChange}
    (written : outcome.onChange drawn token old = some change) :
    token = drawn ∨
      ∃ before, old = some before ∧ (before.used = true → change.used = true) := by
  by_cases new : token = drawn
  · exact .inl new
  · right
    cases outcome with
    | requested fresh closing =>
        simp only [Outcome.onChange, new, false_and, if_false] at written
        obtain ⟨before, found, ⟨-, rfl⟩ | ⟨-, rfl⟩⟩ := changed_cases written
        · exact ⟨before, found, fun _ => rfl⟩
        · exact ⟨change, found, fun used => used⟩
    | confirmed other began user account =>
        obtain ⟨before, found, ⟨-, rfl⟩ | ⟨-, rfl⟩⟩ := changed_cases written
        · exact ⟨before, found, fun _ => rfl⟩
        · exact ⟨change, found, fun used => used⟩
    | _ => exact ⟨change, written, fun used => used⟩

theorem onChange_other {old : Option EmailChange} (known : token < drawn)
    (apart : Row.change token ∉ outcome.rows) : outcome.onChange drawn token old = old := by
  have new : token ≠ drawn := Nat.ne_of_lt known
  cases outcome <;> simp_all [Outcome.onChange, Outcome.rows]

/-! ## The store -/

structure Store.Sound (store : Store) : Prop where
  below : ∀ id link, store.links id = some link → id < store.drawn ∧ link.token < store.drawn
  apart : ∀ id other link twin, store.links id = some link → store.links other = some twin →
    link.token = twin.token → id = other
  changesBelow : ∀ token change, store.changes token = some change → token < store.drawn

variable {store : Store} {outcome : Outcome}

theorem Store.Sound.publish (sound : store.Sound) : (store.publish outcome).Sound where
  below := by
    intro id link written
    show id < store.drawn + 1 ∧ link.token < store.drawn + 1
    rcases onLink_cases written with
      ⟨rfl, draft, closing, rfl, rfl⟩ | ⟨before, found, -, -, kept | ⟨drawn, -⟩⟩
    · exact ⟨Nat.lt_succ_self _, Nat.lt_succ_self _⟩
    · have older := sound.below id before found
      omega
    · have older := sound.below id before found
      omega
  apart := by
    intro id other link twin written paired same
    rcases onLink_cases written with
      ⟨new, draft, closing, created, rfl⟩ | ⟨before, found, -, -, kept | ⟨drawn, expiresAt, resent⟩⟩ <;>
    rcases onLink_cases paired with
      ⟨new', draft', closing', created', rfl⟩ | ⟨before', found', -, -, kept' | ⟨drawn', expiresAt', resent'⟩⟩
    · exact new.trans new'.symm
    · have older := (sound.below other before' found').2
      simp only [Draft.link] at same
      omega
    · simp [created] at resent'
    · have older := (sound.below id before found).2
      simp only [Draft.link] at same
      omega
    · exact sound.apart id other before before' found found' (by omega)
    · have older := (sound.below id before found).2
      omega
    · simp [created'] at resent
    · have older := (sound.below other before' found').2
      omega
    · rw [resent] at resent'
      simp only [Outcome.resent.injEq] at resent'
      exact resent'.1
  changesBelow := by
    intro token change written
    show token < store.drawn + 1
    rcases onChange_cases written with rfl | ⟨before, found, -⟩
    · exact Nat.lt_succ_self _
    · exact Nat.lt_succ_of_lt (sound.changesBelow token before found)

/-! ## What a transaction knows -/

def Covers (store : Store) (user : String) (waiting closing : List Nat) : Prop :=
  ∀ id link, store.links id = some link → link.forUser = some user → link.closed = false →
    id ∈ waiting ∨ id ∈ closing

/-- The link is open, has the token, and had not expired when it was looked at. -/
def Accepting (store : Store) (id token began read : Nat) : Prop :=
  ∃ link, store.links id = some link ∧ link.token = token ∧ link.closed = false ∧
    began ≤ read ∧ read < link.expiresAt

def Confirming (store : Store) (token began : Nat) : Prop :=
  ∃ change, store.changes token = some change ∧ change.used = false ∧ began < change.expiresAt

def Outcome.Known (store : Store) : Outcome → Prop
  | .created draft closing => ∀ user, draft.forUser = some user → Covers store user [] closing
  | .resent id _ | .revoked id => ∃ link, store.links id = some link
  | .accepted id token began read _ _ => Accepting store id token began read
  | .requested _ closing => ∀ token ∈ closing, ∃ change, store.changes token = some change
  | .confirmed token began _ _ => Confirming store token began

def Phase.Known (reading : Store × Nat) : Phase → Prop
  | .updating id outcome => outcome = .revoked id ∨ ∃ expiresAt, outcome = .resent id expiresAt
  | .superseding user _ waiting closing => Covers reading.1 user waiting closing
  | .seeking _ _ began => began ≤ reading.2
  | .resetting input _ id began read _ => Accepting reading.1 id input.token began read
  | .retiring _ _ _ closing => ∀ token ∈ closing, ∃ change, reading.1.changes token = some change
  | .adopting token began _ _ => Confirming reading.1 token began
  | .ready outcome => outcome.Known reading.1
  | _ => True

theorem links_publish (sound : store.Sound)
    (stored : store.links id = some link) : ∃ next, (store.publish outcome).links id = some next := by
  have old : id ≠ store.drawn := Nat.ne_of_lt (sound.below id link stored).1
  simp only [Store.publish, stored]
  cases outcome <;> simp only [Outcome.onLink] <;> (try split_ifs) <;> simp_all

theorem changes_publish {change : EmailChange}
    (stored : store.changes token = some change) :
    ∃ next, (store.publish outcome).changes token = some next := by
  simp only [Store.publish, stored]
  cases outcome <;> simp only [Outcome.onChange] <;> (try split_ifs) <;>
    simp_all [Option.isSome_iff_exists]

theorem Covers.publish {user : String} {waiting closing : List Nat}
    (covers : Covers store user waiting closing) (apart : Row.user user ∉ outcome.rows) :
    Covers (store.publish outcome) user waiting closing := by
  intro id link written owner opened
  rcases onLink_cases written with
    ⟨-, draft, others, rfl, rfl⟩ | ⟨before, found, same, closed, -⟩
  · refine absurd ?_ apart
    simp only [Draft.link] at owner
    simp [Outcome.rows, owner]
  · refine covers id before found (same ▸ owner) ?_
    by_contra wasClosed
    simp [closed (by simpa using wasClosed)] at opened

variable {began : Nat}

theorem Accepting.publish {read : Nat} (sound : store.Sound)
    (accepting : Accepting store id token began read) (apart : Row.link id ∉ outcome.rows) :
    Accepting (store.publish outcome) id token began read := by
  obtain ⟨link, stored, rest⟩ := accepting
  exact ⟨link, (onLink_other (sound.below id link stored).1 apart).trans stored, rest⟩

theorem Confirming.publish (sound : store.Sound)
    (confirming : Confirming store token began) (apart : Row.change token ∉ outcome.rows) :
    Confirming (store.publish outcome) token began := by
  obtain ⟨change, stored, rest⟩ := confirming
  exact ⟨change, (onChange_other (sound.changesBelow token change stored) apart).trans stored, rest⟩

theorem Outcome.Known.publish {other : Outcome} (sound : store.Sound)
    (known : other.Known store) (apart : ∀ row ∈ other.rows, row ∉ outcome.rows) :
    other.Known (store.publish outcome) := by
  cases other with
  | created draft closing =>
      intro user owner
      exact (known user owner).publish (apart _ (by simp [Outcome.rows, owner]))
  | resent id expiresAt | revoked id =>
      obtain ⟨link, stored⟩ := known
      exact links_publish sound stored
  | accepted id token began read user account =>
      exact Accepting.publish sound known (apart _ (by simp [Outcome.rows]))
  | requested change closing =>
      intro token member
      obtain ⟨old, stored⟩ := known token member
      exact changes_publish stored
  | confirmed token began user account =>
      exact Confirming.publish sound known (apart _ (by simp [Outcome.rows]))

variable {phase : Phase}

theorem Phase.Known.publish {clock : Nat} (sound : store.Sound)
    (known : phase.Known (store, clock)) (apart : ∀ row ∈ phase.rows, row ∉ outcome.rows) :
    phase.Known (store.publish outcome, clock) := by
  cases phase with
  | superseding user role waiting closing =>
      exact Covers.publish known (apart _ (by simp [Phase.rows]))
  | resetting input totp id began read user =>
      exact Accepting.publish sound known (apart _ (by simp [Phase.rows]))
  | retiring user newEmail waiting closing =>
      intro token member
      obtain ⟨old, stored⟩ := known token member
      exact changes_publish stored
  | adopting token began user newEmail =>
      exact Confirming.publish sound known (apart _ (by simp [Phase.rows]))
  | ready other => exact Outcome.Known.publish sound known apart
  | seeking input id began | updating id other => exact known
  | idle | entering user | entered user role | changing user newEmail | confirming token began =>
      trivial

theorem Phase.Known.later {clock : Nat} (known : phase.Known (store, clock)) :
    phase.Known (store, clock + 1) := by
  cases phase with
  | seeking input id began => exact Nat.le_succ_of_le known
  | _ => exact known

/-! ## Steps -/

structure World.Sound (world : World) : Prop where
  store : world.store.Sound
  kept : HeldRows.Kept Phase.rows Phase.Known (world.store, world.clock) world.locks

theorem sound_start (accounts : OrderedMap String Account) : (World.start accounts).Sound where
  store := by
    constructor <;> simp [World.start]
  kept := .start rfl trivial

theorem known_begin {request : Request} {now : Nat}
    (begun : store.begin now request = some phase) :
    phase.rows = [] ∧ phase.Known (store, now) := by
  cases request with
  | bootstrap =>
      simp only [Store.begin, Option.ite_none_left_eq_some, Option.some.injEq] at begun
      obtain ⟨-, rfl⟩ := begun
      exact ⟨rfl, by simp [Phase.Known, Outcome.Known]⟩
  | invite email role =>
      simp only [Store.begin, Option.some.injEq] at begun
      subst begun
      exact ⟨rfl, by simp [Phase.Known, Outcome.Known]⟩
  | requestEmailChange user newEmail =>
      simp only [Store.begin] at begun
      split_ifs at begun
      · cases begun
        exact ⟨rfl, by simp [Phase.Known, Outcome.Known]⟩
      · cases begun
        exact ⟨rfl, trivial⟩
  | acceptLink input id =>
      simp only [Store.begin, Option.ite_none_right_eq_some, Option.some.injEq] at begun
      obtain ⟨-, rfl⟩ := begun
      exact ⟨rfl, Nat.le_refl now⟩
  | recoveryLink user =>
      cases begun
      exact ⟨rfl, trivial⟩
  | resendInvitation id =>
      simp only [Store.begin, Option.ite_none_right_eq_some, Option.some.injEq] at begun
      obtain ⟨-, rfl⟩ := begun
      exact ⟨rfl, .inr ⟨_, rfl⟩⟩
  | revokeInvitation id =>
      simp only [Store.begin, Option.ite_none_right_eq_some, Option.some.injEq] at begun
      obtain ⟨-, rfl⟩ := begun
      exact ⟨rfl, .inl rfl⟩
  | confirmEmailChange token =>
      simp only [Store.begin, Option.ite_none_right_eq_some, Option.some.injEq] at begun
      obtain ⟨-, rfl⟩ := begun
      exact ⟨rfl, trivial⟩

variable {world : World}

variable {next : Phase}

theorem known_statement (sound : world.store.Sound) (stepped : world.statement phase = some next)
    (known : phase.Known (world.store, world.clock)) :
    (∀ row ∈ next.rows, row ∈ phase.rows) ∧ next.Known (world.store, world.clock) := by
  cases phase with
  | entered user role =>
      cases stepped
      refine ⟨fun row member => by simpa [Phase.rows] using member, ?_⟩
      intro id link (stored : world.store.links id = some link) owner opened
      left
      simp [found, (sound.below id link stored).1, stored, owner, opened]
  | superseding user role waiting closing =>
      cases waiting with
      | cons first rest => simp [World.statement] at stepped
      | nil =>
          cases stepped
          refine ⟨fun row member => by simpa [Phase.rows, Outcome.rows] using member, ?_⟩
          intro other owner
          obtain rfl : user = other := Option.some.inj owner
          exact known
  | changing user newEmail =>
      cases stepped
      exact ⟨by simp [Phase.rows], by simp [Phase.Known]⟩
  | retiring user newEmail waiting closing =>
      cases waiting with
      | cons first rest => simp [World.statement] at stepped
      | nil =>
          cases stepped
          exact ⟨fun row member => by simpa [Phase.rows, Outcome.rows] using member, known⟩
  | _ => simp [World.statement] at stepped

/-- A link that is found usable is accepted, or the acceptance goes on to reset the
account. -/
theorem known_judge {input : LinkUse} {read : Nat}
    (judged : store.judge input id began read link = some next)
    (accepting : Accepting store id input.token began read) (clock : Nat) :
    (∀ row ∈ next.rows, row = .link id) ∧ next.Known (store, clock) := by
  simp only [Store.judge] at judged
  split at judged
  · simp at judged
  · obtain ⟨user, -, rfl⟩ := Option.map_eq_some_iff.mp judged
    exact ⟨by simp [Phase.rows], accepting⟩
  · simp only [Option.ite_none_right_eq_some, Option.some.injEq] at judged
    obtain ⟨-, rfl⟩ := judged
    exact ⟨by simp [Phase.rows, Outcome.rows], accepting⟩

theorem known_look {row : Row} {keeps : Bool}
    (looked : world.look phase row = some (keeps, next))
    (known : phase.Known (world.store, world.clock)) :
    (∀ held ∈ next.rows, keeps = true ∧ held = row ∨ held ∈ phase.rows) ∧
      next.Known (world.store, world.clock) := by
  cases phase with
  | updating id outcome =>
      cases row with
      | link other =>
          simp only [World.look, Option.ite_none_right_eq_some, Option.some.injEq,
            Prod.mk.injEq] at looked
          obtain ⟨⟨rfl, matching⟩, rfl, rfl⟩ := looked
          obtain ⟨link, stored, -⟩ := (Option.any_eq_true _ _).mp matching
          rcases known with rfl | ⟨expiresAt, rfl⟩
          · exact ⟨by simp [Phase.rows, Outcome.rows], link, stored⟩
          · exact ⟨by simp [Phase.rows, Outcome.rows], link, stored⟩
      | _ => simp [World.look] at looked
  | entering user =>
      cases row with
      | user other =>
          simp only [World.look, Option.ite_none_right_eq_some, Option.map_eq_some_iff,
            Prod.mk.injEq] at looked
          obtain ⟨rfl, account, -, rfl, rfl⟩ := looked
          exact ⟨by simp [Phase.rows], trivial⟩
      | _ => simp [World.look] at looked
  | superseding user role waiting closing =>
      cases row with
      | link id =>
          simp only [World.look, Option.ite_none_right_eq_some] at looked
          obtain ⟨waits, looked⟩ := looked
          split_ifs at looked with opened
          · cases looked
            refine ⟨by simpa [Phase.rows] using fun other held => .inr held, ?_⟩
            intro other link stored owner free
            by_cases here : other = id
            · exact .inr (here ▸ List.mem_cons_self)
            · rcases known other link stored owner free with waiting | closing
              · exact .inl ((List.mem_erase_of_ne here).mpr waiting)
              · exact .inr (List.mem_cons_of_mem _ closing)
          · cases looked
            refine ⟨by simp [Phase.rows], ?_⟩
            intro other link stored owner free
            have elsewhere : other ≠ id := by
              rintro rfl
              exact opened ((Option.any_eq_true _ _).mpr ⟨link, stored, by simp [free]⟩)
            exact (known other link stored owner free).imp_left
              (List.mem_erase_of_ne elsewhere).mpr
      | _ => simp [World.look] at looked
  | seeking input id began =>
      cases row with
      | link other =>
          simp only [World.look, Option.ite_none_right_eq_some, Option.bind_eq_some_iff,
            Option.filter_eq_some_iff, Option.map_eq_some_iff, Prod.mk.injEq] at looked
          obtain ⟨rfl, link, ⟨stored, fits⟩, phase, judged, rfl, rfl⟩ := looked
          simp only [Bool.and_eq_true, decide_eq_true_eq, Link.usable, Bool.not_eq_true'] at fits
          obtain ⟨token, opened, unexpired⟩ := fits
          obtain ⟨rows, fact⟩ := known_judge judged
            ⟨link, stored, token, opened, known, unexpired⟩ world.clock
          exact ⟨fun held member => .inl ⟨rfl, rows held member⟩, fact⟩
      | _ => simp [World.look] at looked
  | resetting input totp id began read user | adopting token began user newEmail =>
      cases row with
      | user other =>
          simp only [World.look, Option.ite_none_right_eq_some, Option.map_eq_some_iff,
            Prod.mk.injEq] at looked
          obtain ⟨rfl, account, -, rfl, rfl⟩ := looked
          exact ⟨by simp [Phase.rows, Outcome.rows], known⟩
      | _ => simp [World.look] at looked
  | retiring user newEmail waiting closing =>
      cases row with
      | change token =>
          simp only [World.look, Option.ite_none_right_eq_some] at looked
          obtain ⟨waits, looked⟩ := looked
          split_ifs at looked with opened
          · cases looked
            obtain ⟨change, stored, -⟩ := (Option.any_eq_true _ _).mp opened
            refine ⟨by simp [Phase.rows], ?_⟩
            intro other member
            rcases List.mem_cons.mp member with rfl | older
            · exact ⟨change, stored⟩
            · exact known other older
          · cases looked
            exact ⟨by simp [Phase.rows], known⟩
      | _ => simp [World.look] at looked
  | confirming token began =>
      cases row with
      | change other =>
          simp only [World.look, Option.ite_none_right_eq_some, Option.map_eq_some_iff,
            Option.filter_eq_some_iff, Prod.mk.injEq, Bool.and_eq_true, Bool.not_eq_true',
            decide_eq_true_eq] at looked
          obtain ⟨rfl, change, ⟨stored, unused, unexpired⟩, rfl, rfl⟩ := looked
          exact ⟨by simp [Phase.rows], change, stored, unused, unexpired⟩
      | _ => simp [World.look] at looked
  | _ => simp [World.look] at looked

theorem sound_step (before : World) (label : Label) (after : World)
    (stepped : Step before label after) (sound : before.Sound) : after.Sound := by
  cases stepped with
  | begin free begun =>
      obtain ⟨none, fact⟩ := known_begin begun
      exact ⟨sound.store, sound.kept.goes (by simp [none]) fact⟩
  | statement next =>
      obtain ⟨within, fact⟩ := known_statement sound.store next (sound.kept.known _)
      exact ⟨sound.store, sound.kept.goes within fact⟩
  | take free next =>
      obtain ⟨within, fact⟩ := known_look next (sound.kept.known _)
      exact ⟨sound.store, sound.kept.takes (by simpa using free)
        (fun held member => (within held member).imp_left (by simp)) fact⟩
  | skip free next =>
      obtain ⟨within, fact⟩ := known_look next (sound.kept.known _)
      refine ⟨sound.store, sound.kept.goes (fun held member => ?_) fact⟩
      exact (within held member).resolve_left (by simp)
  | commit done admitted =>
      refine ⟨sound.store.publish, sound.kept.ends rfl trivial ?_⟩
      intro other different known apart
      rw [done] at apart
      exact Phase.Known.publish sound.store known apart
  | fail => exact ⟨sound.store, sound.kept.ends rfl trivial fun other _ known _ => known⟩
  | tick =>
      exact ⟨sound.store, ⟨sound.kept.holding, fun other => (sound.kept.known other).later⟩⟩

/-! ## What retires a link -/

def Accepts (event : Event World Label) (id token : Nat) : Prop :=
  ∃ transaction began read user account,
    event.label = .commit transaction (.accepted id token began read user account)

/-- The event uses the link, revokes it, gives it another token, or issues a newer
recovery link for its account. -/
def Retires (event : Event World Label) (id token : Nat) : Prop :=
  match event.label with
  | .commit _ (.accepted other used _ _ _ _) => id = other ∨ token = used
  | .commit _ (.revoked other) => id = other
  | .commit _ (.resent other _) =>
      id = other ∧ ∃ link, event.before.store.links id = some link ∧ link.token = token
  | .commit _ (.created draft _) =>
      ∃ user link, draft.forUser = some user ∧ event.before.store.links id = some link ∧
        link.forUser = some user
  | _ => False

def Confirms (event : Event World Label) (token : Nat) : Prop :=
  ∃ transaction began user account,
    event.label = .commit transaction (.confirmed token began user account)

/-- The event uses the link to a new address, or a newer request closes it. -/
def RetiresChange (event : Event World Label) (token : Nat) : Prop :=
  match event.label with
  | .commit _ (.confirmed other _ _ _) => token = other
  | .commit _ (.requested _ closing) => token ∈ closing
  | _ => False

def ClosedLink (id : Nat) (world : World) : Prop :=
  id < world.store.drawn ∧ ∀ link, world.store.links id = some link → link.closed = true

def SpentToken (token : Nat) (world : World) : Prop :=
  token < world.store.drawn ∧
    ∀ id link, world.store.links id = some link → link.token = token → link.closed = true

def UsedChange (token : Nat) (world : World) : Prop :=
  token < world.store.drawn ∧
    ∀ change, world.store.changes token = some change → change.used = true

variable {before after : World}

theorem store_step {label : Label} (stepped : Step before label after) :
    after.store = before.store ∨
      ∃ transaction outcome, label = .commit transaction outcome ∧
        before.locks.phases transaction = .ready outcome ∧
        after.store = before.store.publish outcome := by
  cases stepped with
  | commit done admitted => exact .inr ⟨_, _, rfl, done, rfl⟩
  | _ => exact .inl rfl

theorem closedLink_lasts (before : World) (label : Label) (after : World)
    (stepped : Step before label after) (_ : before.Sound) (closed : ClosedLink id before) :
    ClosedLink id after := by
  rcases store_step stepped with same | ⟨transaction, outcome, -, -, published⟩
  · simpa [ClosedLink, same] using closed
  · rw [ClosedLink, published]
    refine ⟨Nat.lt_succ_of_lt closed.1, ?_⟩
    intro link written
    rcases onLink_cases written with ⟨new, -⟩ | ⟨old, found, continues⟩
    · exact absurd new (Nat.ne_of_lt closed.1)
    · exact continues.closed (closed.2 old found)

theorem spentToken_lasts (before : World) (label : Label) (after : World)
    (stepped : Step before label after) (_ : before.Sound) (spent : SpentToken token before) :
    SpentToken token after := by
  rcases store_step stepped with same | ⟨transaction, outcome, -, -, published⟩
  · simpa [SpentToken, same] using spent
  · rw [SpentToken, published]
    refine ⟨Nat.lt_succ_of_lt spent.1, ?_⟩
    rintro id link written rfl
    rcases onLink_cases written with ⟨-, draft, closing, -, rfl⟩ | ⟨old, found, continues⟩
    · exact absurd spent.1 (Nat.lt_irrefl _)
    · rcases continues.token with kept | ⟨drawn, -⟩
      · exact continues.closed (spent.2 id old found kept.symm)
      · exact absurd spent.1 (drawn ▸ Nat.lt_irrefl _)

theorem usedChange_lasts (before : World) (label : Label) (after : World)
    (stepped : Step before label after) (_ : before.Sound) (used : UsedChange token before) :
    UsedChange token after := by
  rcases store_step stepped with same | ⟨transaction, outcome, -, -, published⟩
  · simpa [UsedChange, same] using used
  · rw [UsedChange, published]
    refine ⟨Nat.lt_succ_of_lt used.1, ?_⟩
    intro change written
    rcases onChange_cases written with new | ⟨old, found, stays⟩
    · exact absurd new (Nat.ne_of_lt used.1)
    · exact stays (used.2 old found)

theorem commit_step {transaction : Nat}
    (stepped : Step before (.commit transaction outcome) after) :
    before.locks.phases transaction = .ready outcome ∧
      after.store = before.store.publish outcome := by
  cases stepped with
  | commit done admitted => exact ⟨done, rfl⟩

theorem known_commit {transaction : Nat}
    (stepped : Step before (.commit transaction outcome) after) (sound : before.Sound) :
    outcome.Known before.store := by
  have known := sound.kept.known transaction
  rw [(commit_step stepped).1] at known
  exact known

theorem closed_publish (sound : store.Sound)
    (stored : store.links id = some link)
    (closes : ∀ next, outcome.onLink store.drawn id (some link) = some next →
      next.closed = true) (next : World) (published : next.store = store.publish outcome) :
    ClosedLink id next := by
  rw [ClosedLink, published]
  refine ⟨Nat.lt_succ_of_lt (sound.below id link stored).1, fun later written => closes later ?_⟩
  rw [← stored]
  exact written

theorem spent_publish (sound : store.Sound)
    (stored : store.links id = some link)
    (old : ∀ draft closing, outcome ≠ .created draft closing)
    (spends : ∀ next, outcome.onLink store.drawn id (some link) = some next →
      next.token = link.token → next.closed = true)
    (next : World) (published : next.store = store.publish outcome) :
    SpentToken link.token next := by
  have below := (sound.below id link stored).2
  rw [SpentToken, published]
  refine ⟨Nat.lt_succ_of_lt below, ?_⟩
  intro other later (written : outcome.onLink store.drawn other (store.links other) = some later)
    paired
  rcases onLink_cases written with ⟨-, draft, closing, created, -⟩ | ⟨before, found, continues⟩
  · exact absurd created (old draft closing)
  · rcases continues.token with kept | ⟨drawn, -⟩
    · obtain rfl : other = id :=
        sound.apart other id before link found stored (kept.symm.trans paired)
      exact spends later (stored ▸ written) paired
    · exact absurd (paired.symm.trans drawn) (Nat.ne_of_lt below)

variable {event : Event World Label}

theorem retired (stepped : Step event.before event.label event.after) (sound : event.before.Sound)
    (retires : Retires event id token) :
    ClosedLink id event.after ∨ SpentToken token event.after := by
  obtain ⟨before, label, after⟩ := event
  simp only at stepped sound
  cases label with
  | commit transaction outcome =>
      obtain ⟨-, published⟩ := commit_step stepped
      have known := known_commit stepped sound
      have fresh : ∀ {number}, number < before.store.drawn → number ≠ before.store.drawn :=
        Nat.ne_of_lt
      cases outcome with
      | accepted other used began read user account =>
          obtain ⟨link, stored, same, -⟩ := known
          rcases retires with rfl | rfl
          · left
            refine closed_publish sound.store stored ?_ after published
            rintro next written
            simp only [Outcome.onLink, if_pos, Option.map_some, Option.some.injEq] at written
            simp [← written, Link.closed]
          · right
            refine same ▸ spent_publish sound.store stored (by simp) ?_ after published
            rintro next written -
            simp only [Outcome.onLink, if_pos, Option.map_some, Option.some.injEq] at written
            simp [← written, Link.closed]
      | revoked other =>
          obtain rfl : id = other := retires
          obtain ⟨link, stored⟩ := known
          left
          refine closed_publish sound.store stored ?_ after published
          intro next written
          simp only [Outcome.onLink, if_pos, Option.map_some, Option.some.injEq] at written
          simp [← written, Link.closed]
      | resent other expiresAt =>
          obtain ⟨rfl, link, stored, rfl⟩ := retires
          have below := sound.store.below id link stored
          right
          refine spent_publish sound.store stored (by simp) ?_ after published
          intro next written kept
          simp only [Outcome.onLink, if_pos, Option.map_some, Option.some.injEq] at written
          exact absurd (kept.symm.trans (by rw [← written])) (fresh below.2)
      | created draft closing =>
          obtain ⟨user, link, owner, stored, mine⟩ := retires
          have below := (sound.store.below id link stored).1
          left
          refine closed_publish sound.store stored ?_ after published
          intro next written
          simp only [Outcome.onLink, if_neg (fresh below)] at written
          by_cases opened : link.closed = true
          · split_ifs at written with listed
            · simp only [Option.map_some, Option.some.injEq] at written
              simp [← written, Link.closed]
            · exact Option.some.inj written ▸ opened
          · have listed := known user owner id link stored mine (by simpa using opened)
            simp only [List.not_mem_nil, false_or] at listed
            simp only [if_pos listed, Option.map_some, Option.some.injEq] at written
            simp [← written, Link.closed]
      | _ => exact retires.elim
  | _ => exact retires.elim

theorem retiredChange
    (stepped : Step event.before event.label event.after) (sound : event.before.Sound)
    (retires : RetiresChange event token) : UsedChange token event.after := by
  obtain ⟨before, label, after⟩ := event
  simp only at stepped sound
  cases label with
  | commit transaction outcome =>
      obtain ⟨-, published⟩ := commit_step stepped
      have known := known_commit stepped sound
      rw [UsedChange, published]
      cases outcome with
      | confirmed other began user account =>
          obtain rfl : token = other := retires
          obtain ⟨change, stored, -⟩ := known
          refine ⟨Nat.lt_succ_of_lt (sound.store.changesBelow token change stored), ?_⟩
          intro later written
          simp only [Store.publish, Outcome.onChange, if_pos, stored, Option.map_some,
            Option.some.injEq] at written
          simp [← written]
      | requested change closing =>
          obtain ⟨old, stored⟩ := known token retires
          have below := sound.store.changesBelow token old stored
          refine ⟨Nat.lt_succ_of_lt below, ?_⟩
          intro later written
          have listed : token ∈ closing := retires
          simp only [Store.publish, Outcome.onChange, Nat.ne_of_lt below, false_and, if_false,
            if_pos listed, stored, Option.map_some, Option.some.injEq] at written
          simp [← written]
      | _ => exact retires.elim
  | _ => exact retires.elim

/-! ## Runs -/

/-- An acceptance found its link open, with the token, and unexpired when it looked,
which was after it began. -/
def InTime (event : Event World Label) : Prop :=
  match event.label with
  | .commit _ (.accepted id token began read _ _) =>
      Accepting event.before.store id token began read
  | .commit _ (.confirmed token began _ _) => Confirming event.before.store token began
  | _ => True

/-- What does not commit changes nothing, and a failed transaction holds nothing. -/
def LeavesStore (event : Event World Label) : Prop :=
  match event.label with
  | .commit _ _ => True
  | .fail transaction =>
      event.after.store = event.before.store ∧
        ∀ row, event.after.locks.held row ≠ some transaction
  | _ => event.after.store = event.before.store

theorem inTime_step
    (stepped : Step event.before event.label event.after) (sound : event.before.Sound) :
    InTime event := by
  obtain ⟨before, label, after⟩ := event
  simp only at stepped sound
  cases label with
  | commit transaction outcome =>
      have known := known_commit stepped sound
      cases outcome with
      | accepted id token began read user account | confirmed token began user account =>
          exact known
      | _ => trivial
  | _ => trivial

theorem leavesStore_step
    (stepped : Step event.before event.label event.after) : LeavesStore event := by
  obtain ⟨before, label, after⟩ := event
  simp only at stepped
  cases stepped with
  | commit done admitted => trivial
  | fail =>
      refine ⟨rfl, fun row => ?_⟩
      simp only [HeldRows.ends]
      split_ifs with held
      · exact Option.some_ne_none _ |>.symm
      · exact held
  | _ => exact rfl

variable {accounts : OrderedMap String Account} {history : List (Event World Label)}
  {final : World}

/-- A link is accepted at most once, never after it was resent, revoked or superseded
or had expired, and what fails changes nothing. -/
theorem links_work_once (run : Follows Step (World.start accounts) history final) :
    (history.Pairwise fun first second =>
        ∀ id token, Retires first id token → ¬Accepts second id token) ∧
      (history.Pairwise fun first second =>
        ∀ token, RetiresChange first token → ¬Confirms second token) ∧
      ∀ event ∈ history, InTime event ∧ LeavesStore event := by
  have events := run.at_events (sound_start accounts) sound_step
  refine ⟨?_, ?_, ?_⟩
  · rw [List.pairwise_iff_forall_sublist]
    rintro first second together id token retires
      ⟨transaction, began, read, user, account, named⟩
    have closed := (run.lasting World.Sound (ClosedLink id) (sound_start accounts) sound_step
      closedLink_lasts).2.2.forall_sublist together
    have spent := (run.lasting World.Sound (SpentToken token) (sound_start accounts) sound_step
      spentToken_lasts).2.2.forall_sublist together
    obtain ⟨stepped, sound⟩ := events first (together.subset (by simp))
    obtain ⟨later, laterSound⟩ := events second (together.subset (by simp))
    have accepting := inTime_step later laterSound
    simp only [InTime, named] at accepting
    obtain ⟨link, stored, same, opened, -⟩ := accepting
    have stillOpen : link.closed ≠ true := by simp [opened]
    rcases retired stepped sound retires with gone | gone
    · exact stillOpen ((closed gone).2 link stored)
    · exact stillOpen ((spent gone).2 id link stored same)
  · rw [List.pairwise_iff_forall_sublist]
    rintro first second together token retires ⟨transaction, began, user, account, named⟩
    have used := (run.lasting World.Sound (UsedChange token) (sound_start accounts) sound_step
      usedChange_lasts).2.2.forall_sublist together
    obtain ⟨stepped, sound⟩ := events first (together.subset (by simp))
    obtain ⟨later, laterSound⟩ := events second (together.subset (by simp))
    have confirming := inTime_step later laterSound
    simp only [InTime, named] at confirming
    obtain ⟨change, stored, unused, -⟩ := confirming
    have gone := (used (retiredChange stepped sound retires)).2 change stored
    simp [unused] at gone
  · intro event member
    obtain ⟨stepped, sound⟩ := events event member
    exact ⟨inTime_step stepped sound, leavesStore_step stepped⟩

/-- The first administrator's link is made and accepted. -/
theorem links_work_once_bootstrap :
    ∃ history final, Follows Step (World.start OrderedMap.empty) history final ∧
      history.map Event.label =
        [.begin 0 .bootstrap,
          .commit 0 (.created ⟨.bootstrap, none, none, .admin, 86400000⟩ []),
          .begin 1 (.acceptLink ⟨0, "1", "root", "h", some true⟩ 0), .look 1 (.link 0),
          .commit 1 (.accepted 0 0 0 0 "1" ⟨"root", none, .admin, .active, "h", true⟩)] ∧
      ∀ event ∈ history, InTime event ∧ LeavesStore event := by
  have run : Follows Step (World.start OrderedMap.empty)
      [⟨_, .begin 0 .bootstrap, _⟩, ⟨_, .commit 0 _, _⟩,
        ⟨_, .begin 1 (.acceptLink ⟨0, "1", "root", "h", some true⟩ 0), _⟩,
        ⟨_, .look 1 (.link 0), _⟩, ⟨_, .commit 1 _, _⟩] _ :=
    .cons (.begin rfl rfl) <| .cons (.commit rfl rfl) <| .cons (.begin rfl rfl) <|
      .cons (.take rfl rfl) <| .cons (.commit rfl rfl) <| .nil _
  exact ⟨_, _, run, rfl, (links_work_once run).2.2⟩

end Barycenter.Accounts.Links
