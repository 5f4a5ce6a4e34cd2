import Barycenter.Foundation.HeldRows
import Barycenter.Foundation.History
import Mathlib.Data.List.Basic

/-!
# Transactions over second factors

The rows of one person: the authenticator, the recovery codes, and the sessions
that wait for a second factor.  A person whose codes the identity provider checks
has no authenticator asked here.  An authenticator is enrolled with a new secret,
over the row that is there if it is unconfirmed; a deletion takes the rows that
its snapshot shows.  Where the database holds the whole store for a transaction,
no other one steps in between.
-/

namespace Barycenter.Accounts.Codes

/-- A row of `mfa_totp`; `id` tells an inserted row from the one before it, and the
secret stands for the enrolment. -/
structure Totp where
  id : Nat
  secret : Nat
  lastStep : Nat
  createdAt : Nat
  confirmed : Bool

structure Store where
  totp : Option Totp
  /-- The recovery codes, and whether they are used. -/
  codes : Nat → Option Bool
  /-- The sessions that wait for a second factor. -/
  pending : List Nat
  drawn : Nat
  /-- The enrolments that were ever confirmed. -/
  confirmed : List Nat

def RECOVERY_CODES : Nat := 10

def TOTP_SETUP_TTL_MS : Nat := 24 * 3600000

def stepOf (nowMs : Nat) : Nat := nowMs / 30000

/-- The first step of the window that the code belongs to and that is not used up. -/
def verifyTotp (hotp : Nat → Nat → String) (secret : Nat) (code : String) (nowMs lastStep : Nat) :
    Option Nat :=
  let digits := code.toList.filter fun char => !char.isWhitespace
  if digits.length = 6 ∧ digits.all Char.isDigit then
    ((List.range 3).filterMap fun d =>
        if 1 ≤ stepOf nowMs + d then some (stepOf nowMs + d - 1) else none).find? fun step =>
      decide (lastStep < step) && decide (hotp secret step = String.ofList digits)
  else none

inductive Door where
  | completeMfa (session : Nat)
  | stepUp

inductive Proof where
  | step (secret step : Nat)
  | recovery (code : Nat)

/-- What a person sends: a recovery code has a shape of its own. -/
inductive Sent where
  | digits (code : String)
  | recovery (code : Nat)

/-- What deletes the authenticator; an accepted link may enrol another one. -/
inductive Removal where
  | removeTotp
  | acceptLink (step : Option Nat)

/-- A transaction that renews or deletes the recovery codes. -/
inductive Change where
  | confirmTotp (row : Totp) (step : Nat)
  | removed (deleted revokes : Bool)
  | enrolled (step : Nat)
  | regenerate

inductive Row where
  | user
  | totp
  | code (code : Nat)
deriving DecidableEq

inductive Phase where
  | idle
  /-- `stepUp` waits for the row of a confirmed authenticator. -/
  | asking (sent : Sent)
  | entering (door : Door) (sent : Sent)
  | admitted (door : Door) (sent : Sent)
  /-- The row is read, and its secret is being opened. -/
  | checking (door : Door) (code : String) (secret lastStep : Nat)
  | counting (door : Door) (secret step : Nat)
  | finding (door : Door) (code : Nat)
  | proved (door : Door) (proof : Proof)
  | starting
  | inserting (createdAt : Nat)
  | began (createdAt : Nat)
  | confirming (code : String)
  | opening (row : Totp) (code : String)
  | resetting (step : Option Nat)
  /-- The deletion of the authenticator waits for the row that it has seen. -/
  | deleting (seen : Option Nat) (removal : Removal)
  | enrolling (deleted : Bool) (step : Nat)
  | renewing (change : Change)
  | clearing (change : Change) (doomed : List Nat)
  | ready (change : Change) (doomed : List Nat)

structure World where
  store : Store
  clock : Nat
  locks : HeldRows Row Phase

def World.start : World :=
  { store := { totp := none, codes := fun _ => none, pending := [], drawn := 0, confirmed := [] }
    clock := 0
    locks := HeldRows.start .idle }

/-! ## Commits -/

def Change.onTotp (change : Change) (drawn clock : Nat) (old : Option Totp) : Option Totp :=
  match change with
  | .confirmTotp row step => some { row with confirmed := true, lastStep := step }
  | .removed deleted _ => if deleted then none else old
  | .enrolled step => some ⟨drawn, drawn, step, clock, true⟩
  | .regenerate => old

/-- The codes that are inserted stand behind the new secret in what is drawn. -/
def Change.renews : Change → Bool
  | .removed _ _ => false
  | _ => true

def Change.confirms (change : Change) (drawn : Nat) : List Nat :=
  match change with
  | .confirmTotp row _ => [row.secret]
  | .enrolled _ => [drawn]
  | _ => []

def Change.revokes : Change → Bool
  | .removed _ revokes => revokes
  | .enrolled _ => true
  | _ => false

def Store.publish (store : Store) (clock : Nat) (phase : Phase) : Store :=
  let next := { store with drawn := store.drawn + 1 + RECOVERY_CODES }
  match phase with
  | .proved door proof =>
      { next with
        totp := match proof with
          | .step _ step => store.totp.map ({ · with lastStep := step })
          | .recovery _ => store.totp
        codes := match proof with
          | .step _ _ => store.codes
          | .recovery used => fun code => if code = used then some true else store.codes code
        pending := match door with
          | .completeMfa session => store.pending.erase session
          | .stepUp => store.pending }
  | .began createdAt =>
      -- an update leaves `confirmed_at` as it is
      { next with totp := some (match store.totp with
          | none => ⟨store.drawn, store.drawn, 0, createdAt, false⟩
          | some old => { old with secret := store.drawn, lastStep := 0, createdAt := createdAt }) }
  | .ready change doomed =>
      { next with
        totp := change.onTotp store.drawn clock store.totp
        codes := fun code =>
          if change.renews ∧ store.drawn < code ∧ code ≤ store.drawn + RECOVERY_CODES then
            some false
          else if code ∈ doomed then none
          else store.codes code
        pending := if change.revokes then [] else store.pending
        confirmed := change.confirms store.drawn ++ store.confirmed }
  | _ => store

def Phase.commits : Phase → Bool
  | .proved _ _ | .began _ | .ready _ _ => true
  | _ => false

/-! ## Statements -/

inductive Request where
  | completeMfa (session : Nat) (sent : Sent)
  | stepUp (sent : Sent)
  | beginTotp
  | confirmTotp (code : String)
  | removeTotp
  | acceptLink (step : Option Nat)
  | regenerateRecoveryCodes

section

variable (hotp : Nat → Nat → String) (idp : Bool)

def Store.hasTotp (store : Store) : Bool := store.totp.any Totp.confirmed

def Store.begin (store : Store) : Request → Option Phase
  | .completeMfa session sent => some (.entering (.completeMfa session) sent)
  | .stepUp sent => some (.asking sent)
  | .beginTotp => some .starting
  | .confirmTotp code => if store.totp.isSome then some (.confirming code) else none
  | .removeTotp => some (.deleting (store.totp.map Totp.id) .removeTotp)
  | .acceptLink step => some (.resetting step)
  | .regenerateRecoveryCodes => if store.hasTotp then some (.renewing .regenerate) else none

/-- An accepted link deletes the codes once more when it inserts new ones, and the
second deletion sees the codes of the first. -/
def Removal.onward (removal : Removal) (deleted : Bool) : Phase :=
  match removal with
  | .removeTotp => .renewing (.removed deleted false)
  | .acceptLink none => .renewing (.removed deleted true)
  | .acceptLink (some step) => .enrolling deleted step

/-- The next statement of a transaction that waits for no row. -/
def World.statement (world : World) : Phase → Option Phase
  | .admitted door (.recovery code) => some (.finding door code)
  | .admitted door (.digits code) =>
      if idp then none
      else world.store.totp.map fun row => .checking door code row.secret row.lastStep
  | .checking door code secret lastStep =>
      (verifyTotp hotp secret code world.clock lastStep).map (.counting door secret)
  | .opening row code =>
      (verifyTotp hotp row.secret code world.clock 0).map fun step =>
        .renewing (.confirmTotp row step)
  | .deleting none removal => some (removal.onward false)
  | .renewing change =>
      some (.clearing change
        ((List.range world.store.drawn).filter fun code => (world.store.codes code).isSome))
  | _ => none

/-- The rows that a statement waits for, and what follows when it has them. -/
def World.look (world : World) : Phase → Option (List Row × Phase)
  | .asking sent =>
      if world.store.hasTotp then some ([.totp], .entering .stepUp sent)
      else if idp then some ([], .entering .stepUp sent)
      else none
  | .entering (.completeMfa session) sent =>
      if session ∈ world.store.pending then
        some ([.user], .admitted (.completeMfa session) sent)
      else none
  | .entering .stepUp sent => some ([.user], .admitted .stepUp sent)
  | .counting door secret step =>
      if world.store.totp.any fun row => row.lastStep < step then
        some ([.totp], .proved door (.step secret step))
      else none
  | .finding door code =>
      if world.store.codes code = some false then
        some ([.code code], .proved door (.recovery code))
      else none
  | .starting =>
      match world.store.totp with
      | none => some ([], .inserting world.clock)
      | some row => if row.confirmed then none else some ([.totp], .inserting world.clock)
  | .inserting createdAt => some ([.totp], .began createdAt)
  | .confirming code =>
      world.store.totp.bind fun row =>
        if row.confirmed ∨ row.createdAt + TOTP_SETUP_TTL_MS < world.clock then none
        else some ([.totp], .opening row code)
  | .resetting step =>
      some ([.user], .deleting (world.store.totp.map Totp.id) (.acceptLink step))
  | .deleting (some seen) removal =>
      let deleted := world.store.totp.any fun row => row.id = seen
      some (if deleted then [.totp] else [], removal.onward deleted)
  -- the inserted row has the key of the person
  | .enrolling deleted step =>
      if deleted || world.store.totp.isNone then some ([.totp], .renewing (.enrolled step))
      else none
  | .clearing change doomed => some (doomed.map .code, .ready change doomed)
  | _ => none

inductive Label where
  /-- A password is right, and a second factor is asked for. -/
  | login (session : Nat)
  | begin (transaction : Nat) (request : Request)
  | statement (transaction : Nat)
  | look (transaction : Nat)
  | commit (transaction : Nat)
  /-- A check refuses, a statement raises an error, or the database aborts. -/
  | fail (transaction : Nat)
  | tick (later : Nat)

inductive Step : World → Label → World → Prop where
  | login {world : World} {session : Nat} (has : world.store.hasTotp = true ∨ idp = true) :
      Step world (.login session)
        { world with store := { world.store with pending := session :: world.store.pending } }
  | begin {world : World} {transaction : Nat} {request : Request} {phase : Phase}
      (free : world.locks.phases transaction = .idle)
      (begun : world.store.begin request = some phase) :
      Step world (.begin transaction request)
        { world with locks := world.locks.goes transaction phase }
  | statement {world : World} {transaction : Nat} {phase : Phase}
      (next : world.statement hotp idp (world.locks.phases transaction) = some phase) :
      Step world (.statement transaction)
        { world with locks := world.locks.goes transaction phase }
  | look {world : World} {transaction : Nat} {rows : List Row} {phase : Phase}
      (next : world.look idp (world.locks.phases transaction) = some (rows, phase))
      (free : ∀ row ∈ rows, world.locks.free transaction row = true) :
      Step world (.look transaction)
        { world with locks := world.locks.takes transaction rows phase }
  | commit {world : World} {transaction : Nat}
      (done : (world.locks.phases transaction).commits = true) :
      Step world (.commit transaction)
        { world with
          store := world.store.publish world.clock (world.locks.phases transaction)
          locks := world.locks.ends transaction .idle }
  | fail {world : World} {transaction : Nat} :
      Step world (.fail transaction)
        { world with locks := world.locks.ends transaction .idle }
  | tick {world : World} {later : Nat} (onward : world.clock ≤ later) :
      Step world (.tick later) { world with clock := later }

end

end Barycenter.Accounts.Codes
