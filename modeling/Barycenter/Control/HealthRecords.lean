import Barycenter.Foundation.History
import Barycenter.Foundation.RunningRecords
import Barycenter.Control.RollbackState

/-!
# Recording what a probe found

A transaction reads the verdict on a backend, drops an observation whose number
is not above the stored one, and otherwise writes state, number, counter and
last result in one statement.  A change of the state and its event are committed
together.

On PostgreSQL the reading locks the row it finds.  A reading that finds no row
locks nothing.  On SQLite a writing transaction has the database to itself.
-/

namespace Barycenter.Control

open Store (Dialect)

/-- The part of a pool's plan that decides when a verdict changes. -/
structure ProbePlan where
  rise : Option Nat := none
  fall : Option Nat := none
deriving DecidableEq, Repr

structure ProbeOptions where
  failThreshold : Option Nat := none
  riseThreshold : Option Nat := none
deriving DecidableEq, Repr

/-- What a probe found, with the number it was given when it started. -/
structure ProbeResult where
  key : String
  seq : Nat
  reason : Option String := none
  plan : Option ProbePlan := none
  opts : ProbeOptions := {}
deriving DecidableEq, Repr

namespace ProbeResult

def ok (result : ProbeResult) : Bool := result.reason.isNone

def riseN (result : ProbeResult) : Nat :=
  (result.plan.bind ProbePlan.rise).getD (result.opts.riseThreshold.getD 1)

def failN (result : ProbeResult) : Nat :=
  (result.plan.bind ProbePlan.fall).getD (result.opts.failThreshold.getD 2)

end ProbeResult

structure HealthEvent where
  seq : Nat
  backendKey : String
  state : HealthState
  detail : Option String
deriving DecidableEq, Repr

structure Recording where
  result : ProbeResult
  row : Option HealthVerdict
deriving DecidableEq, Repr

structure HealthDb where
  rows : OrderedMap String HealthVerdict := .empty
  nextSeq : Nat := 1
  events : List HealthEvent := []
  running : OrderedMap Nat Recording := .empty
deriving DecidableEq, Repr

def prevSeq (row : Option HealthVerdict) : Nat := row.elim 0 HealthVerdict.probeStartSeq

def prevState (row : Option HealthVerdict) : HealthState :=
  row.elim .unknown HealthVerdict.state

namespace Recording

variable (recording : Recording)

/-- How often in a row the result has been seen: not how long the state has
lasted. -/
def streak : Nat :=
  match recording.row with
  | some row => if row.lastOk = recording.result.ok then row.consecutive + 1 else 1
  | none => 1

def next : HealthState :=
  let prev := prevState recording.row
  if recording.result.ok = true ∧ prev ≠ .healthy ∧ recording.result.riseN ≤ recording.streak then
    .healthy
  else if recording.result.ok = false ∧ prev ≠ .unhealthy ∧
      recording.result.failN ≤ recording.streak then
    .unhealthy
  else prev

def written (now : Nat) : HealthVerdict :=
  { state := recording.next
    probeStartSeq := recording.result.seq
    lastOk := recording.result.ok
    consecutive := recording.streak
    observedAt := now
    detail := recording.result.reason }

/-- Whether a statement on the row of `key` waits for this transaction. -/
def blocks (dialect : Dialect) (key : String) : Bool :=
  match dialect with
  | .postgres => recording.row.isSome && recording.result.key == key
  | .sqlite => true

end Recording

namespace HealthDb

def emit (db : HealthDb) (backendKey : String) (state : HealthState) (detail : Option String) :
    HealthDb :=
  { db with
    nextSeq := db.nextSeq + 1
    events := db.events ++ [⟨db.nextSeq, backendKey, state, detail⟩] }

/-- Another transaction than `tx` is in the way. -/
def waits (dialect : Dialect) (db : HealthDb) (tx : Nat) (key : String) : Bool :=
  db.running.entries.any fun (other, recording) => other ≠ tx && recording.blocks dialect key

def store (db : HealthDb) (tx : Nat) (recording : Recording) (now : Nat) : HealthDb :=
  let stored :=
    { db with
      rows := db.rows.set recording.result.key (recording.written now)
      running := db.running.erase tx }
  if recording.next = prevState recording.row then stored
  else stored.emit recording.result.key recording.next recording.result.reason

end HealthDb

inductive RecordStep where
  | read (tx : Nat) (result : ProbeResult)
  | write (tx now : Nat)
  | fail (tx : Nat)
deriving DecidableEq, Repr

def HealthDb.step? (dialect : Dialect) (db : HealthDb) : RecordStep → Option HealthDb
  | .read tx result =>
      if (db.running.get? tx).isSome || db.waits dialect tx result.key then none
      else if result.seq ≤ prevSeq (db.rows.get? result.key) then some db
      else some { db with
        running := db.running.set tx ⟨result, db.rows.get? result.key⟩ }
  | .write tx now =>
      match db.running.get? tx with
      | none => none
      | some recording =>
          if db.waits dialect tx recording.result.key then none
          else some (db.store tx recording now)
  | .fail tx =>
      if (db.running.get? tx).isSome then some { db with running := db.running.erase tx }
      else none

def HealthDb.Step (dialect : Dialect) (before : HealthDb) (label : RecordStep)
    (after : HealthDb) : Prop :=
  before.step? dialect label = some after

end Barycenter.Control
