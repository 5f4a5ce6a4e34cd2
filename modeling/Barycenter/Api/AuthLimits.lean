import Barycenter.Foundation.History
import Barycenter.Foundation.OrderedMap
import Barycenter.Store.ConfigStore
import Mathlib.Algebra.Group.Nat.Defs
import Mathlib.Data.List.Infix
import Mathlib.Data.List.Perm.Subperm

/-!
# Failed authentications counted in memory and in the database

One limiter keeps its counts in the memory of an instance, the other in the
table `auth_throttle`, with one statement for each failure.  Both answer how
long the caller has to wait.  Times and delays are whole milliseconds.  The
arithmetic of the process has no upper end, because a power too large for a
double is infinite there and the cap is taken; the statement, in contrast,
fails where a value leaves the range of its type.
-/

namespace Barycenter

namespace AuthLimits

open Store (Dialect)

structure Options where
  maxFailures : Int := 5
  baseDelayMs : Nat := 1000
  maxDelayMs : Nat := 60000
  ttlMs : Int := 600000
  maxEntries : Nat := 1024
  basePositive : 0 < baseDelayMs := by decide
  capPositive : 0 < maxDelayMs := by decide

/-- The wait after this many failures, where there is one. -/
def Options.delay (o : Options) (failures : Nat) : Nat :=
  min o.maxDelayMs (o.baseDelayMs * 2 ^ ((failures : Int) - o.maxFailures).toNat)

def inSeconds (delay : Nat) : Nat :=
  max 1 ((delay + 999) / 1000)

variable {κ : Type}

/-! ## In memory -/

structure Entry where
  failures : Nat
  blockedUntil : Nat
  lastSeen : Nat
deriving DecidableEq, Repr

abbrev Entries (κ : Type) := OrderedMap κ Entry

def prune (o : Options) (now : Nat) (entries : Entries κ) : Entries κ :=
  entries.filterValues fun entry => !decide (o.ttlMs ≤ (now : Int) - entry.lastSeen)

def trim (o : Options) (entries : Entries κ) : Entries κ :=
  { entries := entries.entries.drop (entries.entries.length - o.maxEntries)
    distinct := ((List.drop_sublist _ _).map Prod.fst).nodup entries.distinct }

variable [DecidableEq κ]

/-- The entry of one more failure, before the wait is set. -/
def oneMore (o : Options) (now : Nat) (old : Option Entry) : Entry :=
  match old with
  | none => { failures := 1, blockedUntil := 0, lastSeen := now }
  | some old =>
      if o.ttlMs ≤ (now : Int) - old.lastSeen then
        { failures := 1, blockedUntil := 0, lastSeen := now }
      else
        { failures := old.failures + 1, blockedUntil := old.blockedUntil, lastSeen := now }

def entryAt (o : Options) (now : Nat) (old : Option Entry) : Entry :=
  let entry := oneMore o now old
  if o.maxFailures ≤ entry.failures then
    { entry with blockedUntil := now + o.delay entry.failures }
  else entry

def AuthFailureLimiter.record (o : Options) (entries : Entries κ) (key : κ) (now : Nat) :
    Option Nat × Entries κ :=
  let pruned := prune o now entries
  let entry := entryAt o now (pruned.get? key)
  (if now < entry.blockedUntil then some (inSeconds (entry.blockedUntil - now)) else none,
    trim o (pruned.set key entry))

def AuthFailureLimiter.clear (entries : Entries κ) (key : κ) : Entries κ :=
  entries.erase key

/-! ## In the database -/

structure Row where
  failures : Nat
  lastFailureAt : Nat
  blockedUntil : Option Nat
deriving DecidableEq, Repr

abbrev Rows (κ : Type) := OrderedMap κ Row

/-- The last millisecond that is written with a year of four digits. -/
def lastPlain : Int := 253402300799999

/-- `last_failure_at <= $3`.  SQLite compares the texts, and a year of more than
four digits is written behind a sign, which sorts before every digit. -/
def notAfter (dialect : Dialect) (stored : Nat) (bound : Int) : Bool :=
  match dialect with
  | .postgres => decide ((stored : Int) ≤ bound)
  | .sqlite =>
      if decide (lastPlain < stored) = decide (lastPlain < bound) then
        decide ((stored : Int) ≤ bound)
      else decide (lastPlain < stored)

/-- A time that `Date` can hold. -/
def isDate (ms : Int) : Bool :=
  decide (-8640000000000000 ≤ ms) && decide (ms ≤ 8640000000000000)

/-- PostgreSQL makes an interval of the delay and adds it to the time. -/
def addable (t delay : Nat) : Bool :=
  decide (delay * 1000 < 2 ^ 63) && decide (t + delay < 9224318016000000)

def counted (o : Options) (dialect : Dialect) (t : Nat) (row : Row) : Nat :=
  if notAfter dialect row.lastFailureAt (t - o.ttlMs) then 1 else row.failures + 1

def powerFits (o : Options) (failures : Nat) : Bool :=
  decide (o.baseDelayMs * 2 ^ ((failures : Int) - o.maxFailures).toNat < 2 ^ 1024)

/-- The statement raises no error.  PostgreSQL evaluates the inserted values also
where the row is there and only updated. -/
def evaluates (o : Options) (dialect : Dialect) (t : Nat) (old : Option Row) : Bool :=
  isDate t && isDate (t - o.ttlMs) &&
    match dialect with
    | .sqlite => true
    | .postgres =>
        decide (-2147483648 ≤ o.maxFailures) && decide (o.maxFailures ≤ 2147483647) &&
          decide (-210866803200000 ≤ (t : Int) - o.ttlMs) &&
          (decide (1 < o.maxFailures) || addable t o.baseDelayMs) &&
          old.all fun row =>
            decide (counted o dialect t row ≤ 2147483647) &&
              (decide ((counted o dialect t row : Int) < o.maxFailures) ||
                powerFits o (counted o dialect t row) &&
                  addable t (o.delay (counted o dialect t row)))

/-- The time a wait ends, as the column gets it: `strftime` knows no year of more
than four digits. -/
def waitsUntil (dialect : Dialect) (t delay : Nat) : Option Nat :=
  match dialect with
  | .postgres => some (t + delay)
  | .sqlite => if (t : Int) + delay ≤ lastPlain then some (t + delay) else none

def upserted (o : Options) (dialect : Dialect) (t : Nat) (old : Option Row) : Row :=
  match old with
  | none =>
      { failures := 1
        lastFailureAt := t
        blockedUntil :=
          if o.maxFailures ≤ 1 then waitsUntil dialect t o.baseDelayMs else none }
  | some row =>
      { failures := counted o dialect t row
        lastFailureAt := t
        blockedUntil :=
          if o.maxFailures ≤ counted o dialect t row then
            waitsUntil dialect t (o.delay (counted o dialect t row))
          else none }

inductive LimitResult where
  | recorded (retryAfterS : Option Nat)
  | unavailable
deriving DecidableEq, Repr

def pgRateLimit.record (o : Options) (dialect : Dialect) (rows : Rows κ) (key : κ) (t : Nat) :
    LimitResult × Rows κ :=
  if evaluates o dialect t (rows.get? key) then
    let row := upserted o dialect t (rows.get? key)
    (.recorded (if (row.failures : Int) < o.maxFailures then none
        else some (inSeconds (o.delay row.failures))),
      rows.set key row)
  else (.unavailable, rows)

def pgRateLimit.clear (rows : Rows κ) (key : κ) : Rows κ :=
  rows.erase key

/-! ## Both over one sequence of failures and clears -/

structure Limiters (κ : Type) where
  memory : Entries κ := OrderedMap.empty
  rows : Rows κ := OrderedMap.empty
  clock : Nat := 0

inductive Label (κ : Type) where
  | record (key : κ) (now : Nat)
  | clear (key : κ)

def Limiters.recorded (o : Options) (dialect : Dialect) (state : Limiters κ) (key : κ)
    (now : Nat) : Limiters κ :=
  { memory := (AuthFailureLimiter.record o state.memory key now).2
    rows := (pgRateLimit.record o dialect state.rows key now).2
    clock := now }

def Limiters.cleared (state : Limiters κ) (key : κ) : Limiters κ :=
  { state with
    memory := AuthFailureLimiter.clear state.memory key
    rows := pgRateLimit.clear state.rows key }

inductive Step (o : Options) (dialect : Dialect) (keys : List κ) :
    Limiters κ → Label κ → Limiters κ → Prop where
  | record {state : Limiters κ} {key : κ} {now : Nat}
      (known : key ∈ keys) (onward : state.clock ≤ now) :
      Step o dialect keys state (.record key now) (state.recorded o dialect key now)
  | clear {state : Limiters κ} {key : κ} :
      Step o dialect keys state (.clear key) (state.cleared key)

/-- The statement of a failure raises no error, and it compares the time of the
row as a time. -/
def Careful (o : Options) (dialect : Dialect) (event : Event (Limiters κ) (Label κ)) : Prop :=
  match event.label with
  | .record key now =>
      evaluates o dialect now (event.before.rows.get? key) = true ∧
        ∀ row, event.before.rows.get? key = some row →
          notAfter dialect row.lastFailureAt (now - o.ttlMs) =
            decide ((row.lastFailureAt : Int) ≤ now - o.ttlMs)
  | .clear _ => True

/-! ## What the two keep in common -/

section Failure

variable {o : Options} {dialect : Dialect} {keys : List κ} {state : Limiters κ}
  {key : κ} {now : Nat}

end Failure

section Runs

variable {o : Options} {dialect : Dialect} {keys : List κ}
  {history : List (Event (Limiters κ) (Label κ))} {final : Limiters κ}

end Runs

end AuthLimits

end Barycenter
