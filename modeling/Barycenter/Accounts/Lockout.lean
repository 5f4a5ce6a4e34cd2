import Mathlib.Logic.Function.Basic
import Barycenter.Foundation.History
import Mathlib.Algebra.Group.Nat.Defs

/-!
# The lock of an account under parallel attempts

A login reads the row of the account, then the clock, and then verifies the
password for as long as that takes.  The two steps with a code hold the row in a
transaction instead, and read the lock behind it.  All three count their
failures in the row; a transaction that ends with an exception leaves the row as
it was.
-/

namespace Barycenter.Accounts.Lockout

/-! ## Counting failures -/

def LOCK_AFTER : Nat := 5

def LOCK_MAX_MS : Nat := 15 * 60 * 1000

def LOCK_BASE_MS : Nat := 1000

def MFA_PENDING_MS : Nat := 5 * 60 * 1000

def SESSION_MAX_MS : Nat := 12 * 60 * 60 * 1000

def backoffMs (failures : Nat) : Nat :=
  if LOCK_AFTER ≤ failures then min LOCK_MAX_MS (LOCK_BASE_MS * 2 ^ (failures - LOCK_AFTER)) else 0

structure UserRow where
  failedLogins : Nat := 0
  lockedUntil : Option Nat := none
  lastFailedAt : Option Nat := none
deriving DecidableEq, Repr

/-- `#locked` -/
def locked (lockedUntil : Option Nat) (now : Nat) : Bool :=
  lockedUntil.any fun limit => now < limit

/-- The last failure is so long ago that the count starts again. -/
def quiet (row : UserRow) (now : Nat) : Bool :=
  row.lastFailedAt.all fun last => last + LOCK_MAX_MS < now

/-- The first statement of `#failed`. -/
def UserRow.failed (row : UserRow) (now : Nat) : UserRow :=
  { row with
    failedLogins := if quiet row now then 1 else row.failedLogins + 1
    lastFailedAt := some now }

/-- The second statement of `#failed`. -/
def UserRow.lockedFrom (row : UserRow) (now : Nat) : UserRow :=
  let ms := backoffMs row.failedLogins
  { row with lockedUntil := if ms = 0 then none else some (now + ms) }

def UserRow.cleared (row : UserRow) : UserRow :=
  { row with failedLogins := 0, lockedUntil := none }

/-! ## The account and its attempts -/

inductive SecondFactorKind where
  | totp
  | idp
deriving DecidableEq, Repr

structure Account where
  active : Bool := true
  admin : Bool := false
  hasPassword : Bool := true
  factor : Option SecondFactorKind := none
deriving DecidableEq, Repr

/-- A right password and a right second factor do not let everyone in. -/
def Account.admits (account : Account) : Bool :=
  account.active && !(account.admin && account.factor.isNone)

structure Session where
  expiresAt : Nat
  mfaPending : Bool
  revoked : Bool := false
  mfaAt : Option Nat := none
deriving DecidableEq, Repr

/-- What verifying a code says.  The third is any other reason to refuse it. -/
inductive Check where
  | right
  | wrong
  | unavailable
deriving DecidableEq, Repr

inductive Outcome where
  | denied
  | mfa (session : Nat) (method : SecondFactorKind)
  | session (session : Nat)
  | steppedUp
  | noTotp
  | lockedOut
  | stepUpFailed
  | unavailable
deriving DecidableEq, Repr

def Outcome.granted : Outcome → Bool
  | .mfa _ _ | .session _ | .steppedUp => true
  | _ => false

inductive Purpose where
  | login
  | mfa
  | stepUp
deriving DecidableEq, Repr

inductive Stage where
  | idle
  | loginRead (lockedUntil : Option Nat)
  | loginChecked (now : Nat) (isLocked : Bool)
  | loginPassed (now : Nat)
  | loginCleared (now : Nat)
  | mfaStarted (pending : Nat) (now : Nat)
  | mfaVerifying (pending : Nat) (now : Nat)
  | stepUpVerifying (session : Nat)
  | counting (purpose : Purpose)
  | locking (purpose : Purpose) (row : UserRow)
  | done (outcome : Outcome)
deriving DecidableEq, Repr

/-- What all attempts share: the clock, the committed row of the account, the
transaction that holds it, and the sessions. -/
structure Shared (ι : Type) where
  clock : Nat := 0
  row : UserRow := {}
  held : Option ι := none
  sessions : List Session := []

inductive Deed where
  | read
  | clock
  | verified (ok : Bool)
  | reset
  | grant
  | mfaStart (pending : Option Nat)
  | mfaRead
  | mfaVerified (check : Check)
  | stepUpRead (session : Nat)
  | stepUpVerified (check : Check)
  | count
  | lock
deriving DecidableEq, Repr

/-- `mfa_pending AND revoked_at IS NULL AND expires_at > now()` -/
def pendingAt (sessions : List Session) (pending now : Nat) : Bool :=
  sessions[pending]?.any fun session =>
    session.mfaPending && !session.revoked && now < session.expiresAt

def revoke (sessions : List Session) (session : Nat) : List Session :=
  sessions.modify session fun stored => { stored with revoked := true }

def stepUpSession (sessions : List Session) (session now : Nat) : List Session :=
  sessions.modify session fun stored =>
    if stored.revoked then stored else { stored with mfaAt := some now }

variable {ι : Type} [DecidableEq ι]

/-- Is the row free for a transaction of this attempt? -/
def Shared.free (shared : Shared ι) (attempt : ι) : Bool :=
  shared.held.all (· = attempt)

def Deed.act (account : Account) (attempt : ι) (shared : Shared ι) :
    Stage → Deed → Option (Shared ι × Stage)
  | .idle, .read =>
      if account.hasPassword then some (shared, .loginRead shared.row.lockedUntil)
      else some (shared, .done .denied)
  | .loginRead lockedUntil, .clock =>
      some (shared, .loginChecked shared.clock (locked lockedUntil shared.clock))
  | .loginChecked now isLocked, .verified ok =>
      if !ok then some (shared, .counting .login)
      else if isLocked || !account.active then some (shared, .done .denied)
      else some (shared, .loginPassed now)
  | .loginPassed now, .reset =>
      if account.factor.isNone && shared.free attempt then
        some ({ shared with row := shared.row.cleared }, .loginCleared now)
      else none
  | .loginPassed now, .grant =>
      account.factor.map fun method =>
        ({ shared with
            sessions := shared.sessions ++
              [{ expiresAt := now + MFA_PENDING_MS, mfaPending := true }] },
          .done (.mfa shared.sessions.length method))
  | .loginCleared now, .grant =>
      if account.admin then some (shared, .done .denied)
      else
        some
          ({ shared with
              sessions := shared.sessions ++
                [{ expiresAt := now + SESSION_MAX_MS, mfaPending := false }] },
            .done (.session shared.sessions.length))
  | .idle, .mfaStart pending =>
      match pending with
      | none => some (shared, .done .denied)
      | some pending => some (shared, .mfaStarted pending shared.clock)
  | .mfaStarted pending now, .mfaRead =>
      if !(pendingAt shared.sessions pending shared.clock && account.active) then
        some (shared, .done .denied)
      else if !shared.free attempt then none
      else if locked shared.row.lockedUntil now then some (shared, .done .denied)
      else some ({ shared with held := some attempt }, .mfaVerifying pending now)
  | .mfaVerifying pending now, .mfaVerified check =>
      match check with
      | .right =>
          some
            ({ shared with
                row := shared.row.cleared
                held := none
                sessions := revoke shared.sessions pending ++
                  [{ expiresAt := now + SESSION_MAX_MS, mfaPending := false
                     mfaAt := some shared.clock }] },
              .done (.session shared.sessions.length))
      | .wrong => some (shared, .counting .mfa)
      | .unavailable => some ({ shared with held := none }, .done .unavailable)
  | .idle, .stepUpRead session =>
      if account.factor.isNone then some (shared, .done .noTotp)
      else if !shared.free attempt then none
      else if locked shared.row.lockedUntil shared.clock then some (shared, .done .lockedOut)
      else some ({ shared with held := some attempt }, .stepUpVerifying session)
  | .stepUpVerifying session, .stepUpVerified check =>
      match check with
      | .right =>
          some
            ({ shared with
                row := shared.row.cleared
                held := none
                sessions := stepUpSession shared.sessions session shared.clock },
              .done .steppedUp)
      | .wrong => some (shared, .counting .stepUp)
      | .unavailable => some ({ shared with held := none }, .done .unavailable)
  | .counting purpose, .count =>
      if shared.free attempt then
        some ({ shared with held := some attempt },
          .locking purpose (shared.row.failed shared.clock))
      else none
  | .locking purpose row, .lock =>
      match purpose with
      | .login | .mfa =>
          some ({ shared with row := row.lockedFrom shared.clock, held := none }, .done .denied)
      | .stepUp =>
          -- the exception behind the second statement takes both of them back
          some ({ shared with held := none }, .done .stepUpFailed)
  | _, _ => none

structure State (ι : Type) where
  shared : Shared ι
  stages : ι → Stage

inductive Label (ι : Type) where
  | tick (ms : Nat)
  | deed (attempt : ι) (deed : Deed)
deriving DecidableEq

def act (account : Account) (state : State ι) : Label ι → Option (State ι)
  | .tick ms =>
      some { state with shared := { state.shared with clock := state.shared.clock + ms } }
  | .deed attempt deed =>
      (deed.act account attempt state.shared (state.stages attempt)).map fun (shared, stage) =>
        { shared := shared, stages := Function.update state.stages attempt stage }

def Step (account : Account) (before : State ι) (label : Label ι) (after : State ι) : Prop :=
  act account before label = some after

end Barycenter.Accounts.Lockout
