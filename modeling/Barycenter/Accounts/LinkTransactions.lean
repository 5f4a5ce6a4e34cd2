import Barycenter.Accounts.Tables
import Barycenter.Foundation.HeldRows
import Barycenter.Foundation.OrderedMap

/-!
# Transactions over one-time links

Every operation on a link is one transaction of a few statements.  A statement
finds its rows in what is committed when it starts, waits for each of them, and
looks at the row again once it has it.  What a transaction wrote is seen from its
commit on, and nothing of it remains when it fails.  Where the database holds the
whole store for a transaction, no other one steps in between.  Tokens and ids are
numbers that are drawn anew; a token is known to nobody before its row is
committed, so that it is drawn there.
-/

namespace Barycenter.Accounts.Links

/-- A row of `invitations`. -/
structure Link where
  token : Nat
  kind : InvitationKind
  forUser : Option String
  email : Option String
  role : Role
  expiresAt : Nat
  usedBy : Option String
  revoked : Bool

def Link.closed (link : Link) : Bool := link.usedBy.isSome || link.revoked

/-- The check of `#usableLink`. -/
def Link.usable (link : Link) (now : Nat) : Bool := !link.closed && decide (now < link.expiresAt)

/-- A row of `email_changes`. -/
structure EmailChange where
  user : String
  newEmail : String
  expiresAt : Nat
  used : Bool

structure Account where
  username : String
  email : Option String
  role : Role
  status : Status
  password : String
  totp : Bool

structure Store where
  links : Nat → Option Link
  changes : Nat → Option EmailChange
  accounts : OrderedMap String Account
  /-- The numbers below are drawn. -/
  drawn : Nat

def EMAIL_CHANGE_TTL_MS : Nat := 24 * 3600000

def isAlphanumeric (char : Char) : Bool :=
  ('a' ≤ char && char ≤ 'z') || ('0' ≤ char && char ≤ '9')

def USERNAME (text : String) : Bool :=
  decide (2 ≤ text.length ∧ text.length ≤ 63) && text.toList.head?.any isAlphanumeric &&
    text.toList.all fun char => isAlphanumeric char || char ∈ ['.', '_', '-']

/-- What a person sends to use a link; the name is trimmed and in small letters, and
the id is the one that a new account gets. -/
structure LinkUse where
  token : Nat
  newUser : String
  username : String
  password : String
  totp : Option Bool

/-! ## Writes -/

structure Draft where
  kind : InvitationKind
  forUser : Option String
  email : Option String
  role : Role
  expiresAt : Nat

def Draft.link (draft : Draft) (token : Nat) : Link :=
  { token := token, kind := draft.kind, forUser := draft.forUser, email := draft.email,
    role := draft.role, expiresAt := draft.expiresAt, usedBy := none, revoked := false }

/-- What a transaction has written.  An acceptance knows when it began and when it
looked at the link. -/
inductive Outcome where
  | created (draft : Draft) (closing : List Nat)
  | resent (id expiresAt : Nat)
  | revoked (id : Nat)
  | accepted (id token began read : Nat) (user : String) (account : Account)
  | requested (change : Option EmailChange) (closing : List Nat)
  | confirmed (token began : Nat) (user : String) (account : Account)

/-- The condition of the statement that rewrites one link. -/
def Outcome.rewrites (outcome : Outcome) (link : Link) : Bool :=
  match outcome with
  | .resent _ _ => decide (link.kind = .invite) && !link.closed
  | _ => !link.closed

def Outcome.onLink (outcome : Outcome) (drawn id : Nat) (old : Option Link) : Option Link :=
  match outcome with
  | .created draft closing =>
      if id = drawn then some (draft.link drawn)
      else if id ∈ closing then old.map ({ · with revoked := true })
      else old
  | .resent other expiresAt =>
      if id = other then old.map ({ · with token := drawn, expiresAt := expiresAt }) else old
  | .revoked other => if id = other then old.map ({ · with revoked := true }) else old
  | .accepted other _ _ _ user _ =>
      if id = other then old.map ({ · with usedBy := some user }) else old
  | .requested _ _ | .confirmed _ _ _ _ => old

def Outcome.onChange (outcome : Outcome) (drawn token : Nat) (old : Option EmailChange) :
    Option EmailChange :=
  match outcome with
  | .requested change closing =>
      if token = drawn ∧ change.isSome then change
      else if token ∈ closing then old.map ({ · with used := true })
      else old
  | .confirmed other _ _ _ =>
      if token = other then old.map ({ · with used := true }) else old
  | .created _ _ | .resent _ _ | .revoked _ | .accepted _ _ _ _ _ _ => old

def Outcome.onAccounts (outcome : Outcome) (old : OrderedMap String Account) :
    OrderedMap String Account :=
  match outcome with
  | .accepted _ _ _ _ user account | .confirmed _ _ user account => old.set user account
  | .created _ _ | .resent _ _ | .revoked _ | .requested _ _ => old

def Store.publish (store : Store) (outcome : Outcome) : Store :=
  { links := fun id => outcome.onLink store.drawn id (store.links id)
    changes := fun token => outcome.onChange store.drawn token (store.changes token)
    accounts := outcome.onAccounts store.accounts
    drawn := store.drawn + 1 }

def Store.admits (store : Store) : Outcome → Bool
  | .accepted _ _ _ _ user account | .confirmed _ _ user account =>
      store.accounts.entries.all fun (other, row) =>
        decide (other = user) || (decide (row.username ≠ account.username) &&
          (account.email.isNone || decide (row.email ≠ account.email)))
  | .created _ _ | .resent _ _ | .revoked _ | .requested _ _ => true

/-! ## Phases -/

inductive Row where
  | link (id : Nat)
  | change (token : Nat)
  | user (id : String)
deriving DecidableEq

inductive Phase where
  | idle
  /-- The statement that rewrites a link waits for it. -/
  | updating (id : Nat) (outcome : Outcome)
  | entering (user : String)
  | entered (user : String) (role : Role)
  /-- The older links of the account are closed one after another. -/
  | superseding (user : String) (role : Role) (waiting closing : List Nat)
  | seeking (input : LinkUse) (id began : Nat)
  | resetting (input : LinkUse) (totp : Bool) (id began read : Nat) (user : String)
  | changing (user newEmail : String)
  | retiring (user newEmail : String) (waiting closing : List Nat)
  | confirming (token began : Nat)
  | adopting (token began : Nat) (user newEmail : String)
  | ready (outcome : Outcome)

def Outcome.rows : Outcome → List Row
  | .created draft closing => draft.forUser.toList.map .user ++ closing.map .link
  | .resent id _ | .revoked id | .accepted id _ _ _ _ _ => [.link id]
  | .requested _ closing => closing.map .change
  | .confirmed token _ _ _ => [.change token]

def Phase.rows : Phase → List Row
  | .entered user _ => [.user user]
  | .superseding user _ _ closing => .user user :: closing.map .link
  | .resetting _ _ id _ _ _ => [.link id]
  | .retiring _ _ _ closing => closing.map .change
  | .adopting token _ _ _ => [.change token]
  | .ready outcome => outcome.rows
  | .idle | .updating _ _ | .entering _ | .seeking _ _ _ | .changing _ _ | .confirming _ _ => []

structure World where
  store : Store
  clock : Nat
  locks : HeldRows Row Phase

def World.start (accounts : OrderedMap String Account) : World :=
  { store := { links := fun _ => none, changes := fun _ => none, accounts := accounts, drawn := 0 }
    clock := 0
    locks := HeldRows.start .idle }

/-! ## Statements -/

/-- The links and changes below the drawn numbers that a statement finds. -/
def found {α : Type} (store : Store) (rows : Nat → Option α) (condition : α → Bool) : List Nat :=
  (List.range store.drawn).filter fun number => (rows number).any condition

inductive Request where
  | bootstrap
  | invite (email : Option String) (role : Role)
  | resendInvitation (id : Nat)
  | revokeInvitation (id : Nat)
  | recoveryLink (user : String)
  | requestEmailChange (user newEmail : String)
  | acceptLink (input : LinkUse) (id : Nat)
  | confirmEmailChange (token : Nat)

/-- The first statement of an operation; a refused one has no phase. -/
def Store.begin (store : Store) (now : Nat) : Request → Option Phase
  | .bootstrap =>
      if store.accounts.values.any fun row => row.role = .admin && row.status = .active then none
      else some (.ready (.created ⟨.bootstrap, none, none, .admin, now + BOOTSTRAP_TTL_MS⟩ []))
  | .invite email role =>
      some (.ready (.created ⟨.invite, none, email, role, now + INVITE_TTL_MS⟩ []))
  | .resendInvitation id =>
      let outcome := .resent id (now + INVITE_TTL_MS)
      if (store.links id).any outcome.rewrites then some (.updating id outcome) else none
  | .revokeInvitation id =>
      let outcome := .revoked id
      if (store.links id).any outcome.rewrites then some (.updating id outcome) else none
  | .recoveryLink user => some (.entering user)
  | .requestEmailChange user newEmail =>
      if store.accounts.values.any fun row => row.email = some newEmail then
        some (.ready (.requested none []))
      else some (.changing user newEmail)
  | .acceptLink input id =>
      if (store.links id).any fun link => link.token = input.token then
        some (.seeking input id now)
      else none
  | .confirmEmailChange token =>
      if (store.changes token).any fun change =>
          !change.used && decide (now < change.expiresAt) &&
            (store.accounts.get? change.user).any fun row => row.status = .active then
        some (.confirming token now)
      else none

/-- The next statement of a transaction that waits for no row. -/
def World.statement (world : World) : Phase → Option Phase
  | .entered user role =>
      some (.superseding user role (found world.store world.store.links fun link =>
        decide (link.forUser = some user) && !link.closed) [])
  | .superseding user role [] closing =>
      some (.ready (.created
        ⟨.recovery, some user, none, role, world.clock + RECOVERY_TTL_MS⟩ closing))
  | .changing user newEmail =>
      some (.retiring user newEmail (found world.store world.store.changes fun change =>
        decide (change.user = user) && !change.used) [])
  | .retiring user newEmail [] closing =>
      some (.ready (.requested
        (some ⟨user, newEmail, world.clock + EMAIL_CHANGE_TTL_MS, false⟩) closing))
  | _ => none

/-- What an acceptance does with the link that it has found usable. -/
def Store.judge (store : Store) (input : LinkUse) (id began read : Nat) (link : Link) :
    Option Phase :=
  match totpOfLink link.role input.totp, link.kind with
  | .error _, _ => none
  | .ok totp, .recovery => link.forUser.map (.resetting input totp id began read)
  | .ok totp, _ =>
      if USERNAME input.username && (store.accounts.get? input.newUser).isNone then
        some (.ready (.accepted id input.token began read input.newUser
          ⟨input.username, link.email, link.role, .active, input.password, totp⟩))
      else none

/-- The row that a transaction waits for is looked at again, and the transaction goes
on; it keeps the row unless its condition fails. -/
def World.look (world : World) : Phase → Row → Option (Bool × Phase)
  | .updating id outcome, .link other =>
      if other = id ∧ (world.store.links id).any outcome.rewrites then
        some (true, .ready outcome)
      else none
  | .entering user, .user other =>
      if other = user then
        ((world.store.accounts.get? user).filter fun row => decide (row.status ≠ .deleted)).map
          fun row => (true, .entered user row.role)
      else none
  | .superseding user role waiting closing, .link id =>
      if id ∈ waiting then
        if (world.store.links id).any fun link => !link.closed then
          some (true, .superseding user role (waiting.erase id) (id :: closing))
        else some (false, .superseding user role (waiting.erase id) closing)
      else none
  | .seeking input id began, .link other =>
      if other = id then
        ((world.store.links id).filter fun link =>
            decide (link.token = input.token) && link.usable world.clock).bind fun link =>
          (world.store.judge input id began world.clock link).map (true, ·)
      else none
  | .resetting input totp id began read user, .user other =>
      if other = user then
        (world.store.accounts.get? user).map fun row =>
          (true, .ready (.accepted id input.token began read user
            { row with password := input.password, totp := totp }))
      else none
  | .retiring user newEmail waiting closing, .change token =>
      if token ∈ waiting then
        if (world.store.changes token).any fun change => !change.used then
          some (true, .retiring user newEmail (waiting.erase token) (token :: closing))
        else some (false, .retiring user newEmail (waiting.erase token) closing)
      else none
  | .confirming token began, .change other =>
      if other = token then
        ((world.store.changes token).filter fun change =>
            !change.used && decide (began < change.expiresAt)).map fun change =>
          (true, .adopting token began change.user change.newEmail)
      else none
  | .adopting token began user newEmail, .user other =>
      if other = user then
        (world.store.accounts.get? user).map fun row =>
          (true, .ready (.confirmed token began user { row with email := some newEmail }))
      else none
  | _, _ => none

/-! ## Runs -/

inductive Label where
  | begin (transaction : Nat) (request : Request)
  | statement (transaction : Nat)
  | look (transaction : Nat) (row : Row)
  | commit (transaction : Nat) (outcome : Outcome)
  /-- A check refuses, a statement raises an error, or the database aborts. -/
  | fail (transaction : Nat)
  | tick

inductive Step : World → Label → World → Prop where
  | begin {world : World} {transaction : Nat} {request : Request} {phase : Phase}
      (free : world.locks.phases transaction = .idle)
      (begun : world.store.begin world.clock request = some phase) :
      Step world (.begin transaction request)
        { world with locks := world.locks.goes transaction phase }
  | statement {world : World} {transaction : Nat} {phase : Phase}
      (next : world.statement (world.locks.phases transaction) = some phase) :
      Step world (.statement transaction)
        { world with locks := world.locks.goes transaction phase }
  | take {world : World} {transaction : Nat} {row : Row} {phase : Phase}
      (free : world.locks.free transaction row = true)
      (next : world.look (world.locks.phases transaction) row = some (true, phase)) :
      Step world (.look transaction row)
        { world with locks := world.locks.takes transaction [row] phase }
  | skip {world : World} {transaction : Nat} {row : Row} {phase : Phase}
      (free : world.locks.free transaction row = true)
      (next : world.look (world.locks.phases transaction) row = some (false, phase)) :
      Step world (.look transaction row)
        { world with locks := world.locks.goes transaction phase }
  | commit {world : World} {transaction : Nat} {outcome : Outcome}
      (done : world.locks.phases transaction = .ready outcome)
      (admitted : world.store.admits outcome = true) :
      Step world (.commit transaction outcome)
        { world with
          store := world.store.publish outcome
          locks := world.locks.ends transaction .idle }
  | fail {world : World} {transaction : Nat} :
      Step world (.fail transaction)
        { world with locks := world.locks.ends transaction .idle }
  | tick {world : World} : Step world .tick { world with clock := world.clock + 1 }

end Barycenter.Accounts.Links
