import Barycenter.Accounts.Authority
import Barycenter.Foundation.History
import Mathlib.Logic.Function.Basic

/-!
# Role changes pushed by the identity provider

A receiver verifies an event and then runs one transaction: it remembers the
event's id, locks the identity's row, records the transaction number, maps the
lists and changes the account.  Between any two statements other receivers go
on; a statement waits while another transaction holds its row, and what a
transaction wrote is seen from its commit on.  A transaction may end without a
commit at any point.  Clocks are read by each instance on its own.
-/

namespace Barycenter.Accounts.RoleChanges

structure RoleChange where
  sub : String
  jti : String
  txn : Nat
  exp : Nat
  roles : List String
  entitlements : List String
deriving DecidableEq, Repr

/-- What does not change while events arrive.  The id of an event is its own:
copies of it name the same subject and transaction number. -/
structure Provider where
  signed : RoleChange → Bool
  identified : ∀ first second, signed first → signed second →
    first.jti = second.jti → first.sub = second.sub ∧ first.txn = second.txn
  link : String → Option String
  fromLists : List String → List String → Option IdpAuthority

structure Account where
  row : UserRow
  /-- The condition `IDP_AUTHORITY_SQL`. -/
  idpAuthority : Bool
  sessions : List String
deriving DecidableEq, Repr

/-- What the statements beside the account's own row answer. -/
structure Answers where
  hasFactor : Bool
  others : Nat
deriving DecidableEq, Repr

inductive Ending where
  | replay
  | noIdentity
  | stale
  | ignored (why : String)
  | refused (user : String) (answers : Answers) (why : String)
  | applied (user : String) (answers : Answers) (value : IdpAuthority) (row : UserRow)
deriving DecidableEq, Repr

inductive Phase where
  | idle
  | verified (change : RoleChange)
  | remembered (change : RoleChange)
  | identified (change : RoleChange) (user : String)
  | mapped (change : RoleChange) (user : String) (next : IdpAuthority)
  | locked (change : RoleChange) (user : String) (next : IdpAuthority) (row : UserRow)
  | closing (change : RoleChange) (ending : Ending)
deriving DecidableEq, Repr

/-- The committed tables, the rows that transactions hold, and the receivers. -/
structure World where
  idpSetJti : String → Option Nat
  roleChangeTxn : String → Option Nat
  accounts : String → Account
  jtiHeld : String → Option Nat
  identityHeld : String → Option Nat
  rowHeld : String → Option Nat
  receivers : Nat → Phase

def World.start (idpSetJti : String → Option Nat) (roleChangeTxn : String → Option Nat)
    (accounts : String → Account) : World :=
  { idpSetJti := idpSetJti
    roleChangeTxn := roleChangeTxn
    accounts := accounts
    jtiHeld := fun _ => none
    identityHeld := fun _ => none
    rowHeld := fun _ => none
    receivers := fun _ => .idle }

def World.goes (world : World) (receiver : Nat) (phase : Phase) : World :=
  { world with receivers := Function.update world.receivers receiver phase }

def released (held : String → Option Nat) (receiver : Nat) (key : String) : Option Nat :=
  if held key = some receiver then none else held key

/-- A transaction ends: its locks go, and the receiver is free. -/
def World.ends (world : World) (receiver : Nat) : World :=
  { world with
    jtiHeld := released world.jtiHeld receiver
    identityHeld := released world.identityHeld receiver
    rowHeld := released world.rowHeld receiver
    receivers := Function.update world.receivers receiver .idle }

/-! ## The statements -/

/-- The authority an event asks for: every scope is denied where the lists map
to no role. -/
def nextOf (provider : Provider) (change : RoleChange) (role : Role) : IdpAuthority :=
  match provider.fromLists change.roles change.entitlements with
  | some value => value
  | none => { role := role, grant := [], deny := ALL_SCOPES }

def stale (recorded : Option Nat) (change : RoleChange) : Bool :=
  match recorded with
  | none => false
  | some txn => decide (change.txn ≤ txn)

def applyTo (account : Account) (value : IdpAuthority) (row : UserRow) : Account :=
  { account with
    row := row
    sessions := if Scope.read ∈ scopesOfAuthority value then account.sessions else [] }

def World.remembers (world : World) (change : RoleChange) : World :=
  { world with
    idpSetJti := Function.update world.idpSetJti change.jti (some (change.exp * 1000)) }

def World.records (world : World) (change : RoleChange) : World :=
  { world with
    roleChangeTxn := Function.update world.roleChangeTxn change.sub (some change.txn) }

def committed (world : World) (change : RoleChange) : Ending → World
  | .replay => world
  | .noIdentity | .stale => world.remembers change
  | .ignored _ | .refused .. => (world.remembers change).records change
  | .applied user _ value row =>
      { (world.remembers change).records change with
        accounts := Function.update world.accounts user
          (applyTo (world.accounts user) value row) }

def insertJti (world : World) (receiver : Nat) (change : RoleChange) : Option World :=
  if (world.idpSetJti change.jti).isSome then
    some (world.goes receiver (.closing change .replay))
  else if (world.jtiHeld change.jti).isSome then none
  else
    some ({ world with
      jtiHeld := Function.update world.jtiHeld change.jti (some receiver) }.goes receiver
        (.remembered change))

def lockIdentity (provider : Provider) (world : World) (receiver : Nat) (change : RoleChange) :
    Option World :=
  match provider.link change.sub with
  | none => some (world.goes receiver (.closing change .noIdentity))
  | some user =>
      if (world.identityHeld change.sub).isSome then none
      else
        let holding :=
          { world with
            identityHeld := Function.update world.identityHeld change.sub (some receiver) }
        if stale (world.roleChangeTxn change.sub) change then
          some (holding.goes receiver (.closing change .stale))
        else some (holding.goes receiver (.identified change user))

def map (provider : Provider) (world : World) (receiver : Nat) (change : RoleChange)
    (user : String) : World :=
  let account := world.accounts user
  if account.row.status ≠ .active then
    world.goes receiver (.closing change (.ignored "not_active"))
  else if !account.idpAuthority then
    world.goes receiver (.closing change (.ignored "local_authority"))
  else world.goes receiver (.mapped change user (nextOf provider change account.row.role))

def lockRow (world : World) (receiver : Nat) (change : RoleChange) (user : String)
    (next : IdpAuthority) : Option World :=
  if (world.rowHeld user).isSome then none
  else
    some ({ world with
      rowHeld := Function.update world.rowHeld user (some receiver) }.goes receiver
        (.locked change user next (world.accounts user).row))

def endingOf (user : String) (next : IdpAuthority) (row : UserRow) (answers : Answers) : Ending :=
  match applyIdp row next answers.hasFactor answers.others with
  | .error why => .refused user answers why
  | .ok (value, changed) => .applied user answers value changed

/-! ## Runs -/

inductive Label where
  | deliver (receiver : Nat) (change : RoleChange) (now : Nat)
  | insertJti (receiver : Nat)
  | lockIdentity (receiver : Nat)
  | map (receiver : Nat)
  | lockRow (receiver : Nat)
  | applyIdp (receiver : Nat) (answers : Answers)
  | commit (receiver : Nat)
  | abort (receiver : Nat)
  | purgeExpired (now : Nat)
deriving DecidableEq, Repr

def act (provider : Provider) (world : World) : Label → Option World
  | .deliver receiver change now =>
      match world.receivers receiver with
      | .idle =>
          if provider.signed change ∧ now / 1000 < change.exp then
            some (world.goes receiver (.verified change))
          else none
      | _ => none
  | .insertJti receiver =>
      match world.receivers receiver with
      | .verified change => insertJti world receiver change
      | _ => none
  | .lockIdentity receiver =>
      match world.receivers receiver with
      | .remembered change => lockIdentity provider world receiver change
      | _ => none
  | .map receiver =>
      match world.receivers receiver with
      | .identified change user => some (map provider world receiver change user)
      | _ => none
  | .lockRow receiver =>
      match world.receivers receiver with
      | .mapped change user next => lockRow world receiver change user next
      | _ => none
  | .applyIdp receiver answers =>
      match world.receivers receiver with
      | .locked change user next row =>
          some (world.goes receiver (.closing change (endingOf user next row answers)))
      | _ => none
  | .commit receiver =>
      match world.receivers receiver with
      | .closing change ending => some ((committed world change ending).ends receiver)
      | _ => none
  | .abort receiver =>
      match world.receivers receiver with
      | .idle => none
      | _ => some (world.ends receiver)
  | .purgeExpired now =>
      some { world with
        idpSetJti := fun jti =>
          match world.idpSetJti jti with
          | none => none
          | some expires => if expires < now then none else some expires }

def Steps (provider : Provider) (before : World) (label : Label) (after : World) : Prop :=
  act provider before label = some after

end Barycenter.Accounts.RoleChanges
