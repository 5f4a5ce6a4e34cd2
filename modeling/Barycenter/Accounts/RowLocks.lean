import Barycenter.Accounts.Tables

/-!
# Transactions over user rows

A change of one account locks the rows of the active administrators, as the
statement's snapshot shows them, then the account's own row, which it reads again,
counts the other active administrators, and writes.  The clearing of what the
provider granted takes the rows it will change one after another and looks at
each again.  A row is held until the transaction ends, and what a transaction
wrote is seen from its commit on.  Where the database holds the whole store for
a transaction, no other one steps in between.
-/

namespace Barycenter.Accounts.RowLocks

inductive Change where
  | updateUser (user : String) (patch : UserPatch)
  | deleteUser (user : String)
  | applyIdp (user : String) (next : IdpAuthority)
deriving DecidableEq, Repr

def Change.user : Change → String
  | .updateUser user _ => user
  | .deleteUser user => user
  | .applyIdp user _ => user

/-- What the statement that locks the account's row reads. -/
structure Read where
  row : UserRow
  hasIdentity : Bool
  byProvider : Bool
deriving DecidableEq, Repr

/-- The row that the change writes; nothing where it is refused. -/
def Change.outcome (change : Change) (read : Read) (hasFactor : Bool) (others : Nat) :
    Option UserRow :=
  match change with
  | .updateUser _ patch =>
      (Accounts.updateUser read.row patch
        { hasIdentity := read.hasIdentity, byProvider := read.byProvider,
          hasFactor := hasFactor, others := others }).toOption
  | .deleteUser _ => (Accounts.deleteUser read.row others).toOption
  | .applyIdp _ next => (Accounts.applyIdp read.row next hasFactor others).toOption.map Prod.snd

/-- A change after which `settleLocal` runs. -/
inductive Clearing where
  | unlink (identity : Identity)
  | authorityOff (issuer : String)
deriving DecidableEq, Repr

def Clearing.only : Clearing → Option String
  | .unlink identity => some identity.user
  | .authorityOff _ => none

/-- The tables as the transaction sees them after its first statement. -/
def Clearing.opened (clearing : Clearing) (tables : Tables) : Tables :=
  match clearing with
  | .unlink identity => tables.withoutIdentity identity
  | .authorityOff issuer => tables.setProvider issuer ({ · with idpAuthority := false })

def Clearing.allowed (idpMfa : Option String) (clearing : Clearing) (tables : Tables) : Bool :=
  match clearing with
  | .unlink identity =>
      tables.identities.contains identity &&
        !((tables.users identity.user).any ADMIN_SQL &&
          ((clearing.opened tables).factorOf idpMfa identity.user).isNone)
  | .authorityOff _ => true

inductive Phase where
  | idle
  | locking (change : Change) (waiting : List String)
  | judging (change : Change) (read : Read)
  | writing (user : String) (old new : UserRow)
  | opened (clearing : Clearing)
  | settling (clearing : Clearing) (snapshot : Tables) (waiting cleared : List String)

structure World where
  tables : Tables
  held : String → Option Nat
  transactions : Nat → Phase

def World.start (tables : Tables) : World :=
  { tables := tables, held := fun _ => none, transactions := fun _ => .idle }

def World.goes (world : World) (transaction : Nat) (phase : Phase) : World :=
  { world with transactions := Function.update world.transactions transaction phase }

def World.holds (world : World) (transaction : Nat) (user : String) : World :=
  { world with held := Function.update world.held user (some transaction) }

def World.free (world : World) (transaction : Nat) (user : String) : Bool :=
  world.held user == none || world.held user == some transaction

def World.ends (world : World) (transaction : Nat) : World :=
  { world with
    held := fun user => if world.held user = some transaction then none else world.held user
    transactions := Function.update world.transactions transaction .idle }

def candidates (tables : Tables) (condition : String → UserRow → Bool) : List String :=
  tables.userIds.filter fun user => (tables.users user).any (condition user)

/-- The rows that are cleared, in the committed tables. -/
def clearRows (tables : Tables) (cleared : List String) : Tables :=
  { tables with
    users := fun user =>
      if cleared.contains user then (tables.users user).map UserRow.cleared
      else tables.users user }

/-! ## The statements -/

def World.lockRow (world : World) (transaction : Nat) (user : String) : Option World :=
  match world.tables.users user with
  | none => none
  | some row =>
      if !world.free transaction user then none
      else
        match world.transactions transaction with
        | .locking change waiting =>
            if waiting.contains user then
              some ((world.holds transaction user).goes transaction
                (.locking change (waiting.erase user)))
            else none
        | .settling clearing snapshot waiting cleared =>
            if waiting.contains user then
              -- the row is looked at again with what the statement's snapshot says of the others
              let changes := (clearing.opened snapshot).settles clearing.only user row
              some ((world.holds transaction user).goes transaction
                (.settling clearing snapshot (waiting.erase user)
                  (if changes then cleared ++ [user] else cleared)))
            else none
        | _ => none

def World.readRow (world : World) (transaction : Nat) : Option World :=
  match world.transactions transaction with
  | .locking change [] =>
      match world.tables.users change.user with
      | none => some (world.ends transaction)
      | some row =>
          if !world.free transaction change.user then none
          else
            some ((world.holds transaction change.user).goes transaction
              (.judging change
                { row := row
                  hasIdentity :=
                    world.tables.identities.any fun identity => identity.user == change.user
                  byProvider := world.tables.PROVIDER_AUTHORITY_SQL change.user }))
  | _ => none

/-- The other administrators are counted, and the row is written or the change
refused. -/
def World.judge (idpMfa : Option String) (world : World) (transaction : Nat) : Option World :=
  match world.transactions transaction with
  | .judging change read =>
      match change.outcome read (world.tables.hasFactor idpMfa change.user)
          (world.tables.others change.user) with
      | none => some (world.ends transaction)
      | some new => some (world.goes transaction (.writing change.user read.row new))
  | _ => none

def World.commit (world : World) (transaction : Nat) : Option World :=
  match world.transactions transaction with
  | .writing user _ new =>
      some (({ world with tables := world.tables.setUser user new } : World).ends transaction)
  | .settling clearing _ [] cleared =>
      some (({ world with
        tables := clearRows (clearing.opened world.tables) cleared } : World).ends transaction)
  | _ => none

/-! ## Runs -/

inductive Label where
  | lockAdmins (transaction : Nat) (change : Change)
  | lockRow (transaction : Nat) (user : String)
  | readRow (transaction : Nat)
  | judge (transaction : Nat)
  | openClearing (transaction : Nat) (clearing : Clearing)
  | settleLocal (transaction : Nat)
  | commit (transaction : Nat)
  | abort (transaction : Nat)
  | switchAuthorityOn (issuer : String)
  /-- An invitation is accepted, or a first login makes an account. -/
  | enrol (user : String) (role : Role)
  /-- Other operations change the other tables. -/
  | elsewhere (mfaTotp : String → Option Bool) (identities : List Identity)
      (providers : String → Option ProviderRow)

def act (idpMfa : Option String) (world : World) : Label → Option World
  | .lockAdmins transaction change =>
      match world.transactions transaction with
      | .idle =>
          some (world.goes transaction
            (.locking change (candidates world.tables fun _ row => row.activeAdmin)))
      | _ => none
  | .lockRow transaction user => world.lockRow transaction user
  | .readRow transaction => world.readRow transaction
  | .judge transaction => world.judge idpMfa transaction
  | .openClearing transaction clearing =>
      match world.transactions transaction with
      | .idle =>
          if clearing.allowed idpMfa world.tables then
            some (world.goes transaction (.opened clearing))
          else none
      | _ => none
  | .settleLocal transaction =>
      match world.transactions transaction with
      | .opened clearing =>
          some (world.goes transaction (.settling clearing world.tables
            (candidates world.tables ((clearing.opened world.tables).settles clearing.only)) []))
      | _ => none
  | .commit transaction => world.commit transaction
  | .abort transaction => some (world.ends transaction)
  | .switchAuthorityOn issuer =>
      match world.tables.setProviderAuthority issuer true with
      | .ok tables => some { world with tables := tables }
      | .error _ => none
  | .enrol user role =>
      match world.tables.users user with
      | some _ => none
      | none => some { world with tables := world.tables.addUser user role }
  | .elsewhere mfaTotp identities providers =>
      some { world with
        tables := { world.tables with
          mfaTotp := mfaTotp, identities := identities, providers := providers } }

def Steps (idpMfa : Option String) (before : World) (label : Label) (after : World) : Prop :=
  act idpMfa before label = some after

end Barycenter.Accounts.RowLocks
