import Barycenter.Foundation.History
import Mathlib.Logic.Function.Basic

/-!
# The file store

A handle is one opened store.  It takes a lock file by linking a finished one
into place; a lock whose holder has died is taken over by reading it twice and
unlinking it.  A save checks the lock, reads the state for the version, writes a
file of its own and renames it.  Between any two of these calls other processes
go on.

A nonce is drawn anew for every attempt and never again, which its handle and
attempt stand for.
-/

namespace Barycenter.Dp.Files

/-! ## The state file -/

def STORE_SCHEMA : Nat := 1

structure StoredState (Data : Type) where
  version : Nat
  data : Data
deriving DecidableEq, Repr

structure Envelope (Data : Type) where
  schema : Nat
  checksum : String
  state : Option (StoredState Data)
deriving DecidableEq, Repr

inductive FileContent (Data : Type) where
  | empty
  | malformed
  | envelope (envelope : Envelope Data)
deriving DecidableEq, Repr

inductive StoreCorrupted where
  | empty
  | notJson
  | schema (found : Nat)
  | noState
  | checksum (claimed actual : String)
deriving DecidableEq, Repr

section

variable {Data : Type} (digestOf : StoredState Data → String)

def readState : Option (FileContent Data) → Except StoreCorrupted (Option (StoredState Data))
  | none => .ok none
  | some .empty => .error .empty
  | some .malformed => .error .notJson
  | some (.envelope envelope) =>
      if envelope.schema ≠ STORE_SCHEMA then .error (.schema envelope.schema)
      else
        match envelope.state with
        | none => .error .noState
        | some state =>
            if digestOf state = envelope.checksum then .ok (some state)
            else .error (.checksum envelope.checksum (digestOf state))

def envelopeOf (state : StoredState Data) : Envelope Data :=
  { schema := STORE_SCHEMA, checksum := digestOf state, state := some state }

@[simp] theorem readState_envelopeOf (state : StoredState Data) :
    readState digestOf (some (.envelope (envelopeOf digestOf state))) = .ok (some state) := by
  simp [readState, envelopeOf]

end

def versionOf {Data : Type} (current : Option (StoredState Data)) : Nat :=
  (current.map StoredState.version).getD 0

/-! ## The lock file -/

inductive Nonce where
  | drawn (handle attempt : Nat)
  /-- Left by a process that is not part of the run. -/
  | foreign (value : String)
deriving DecidableEq, Repr

structure LockRecord where
  pid : Nat
  nonce : Nonce
  startedAt : Option Nat
deriving DecidableEq, Repr

inductive LockFile where
  | record (record : LockRecord)
  | unreadable
deriving DecidableEq, Repr

def readLock : Option LockFile → Option LockRecord
  | some (.record record) => some record
  | _ => none

def nonceOf (lock : Option LockFile) : Option Nonce := (readLock lock).map LockRecord.nonce

/-! ## Handles -/

/-- The next file-system call of a handle, with what it has found out before. -/
inductive Phase (Data : Type) where
  | drafting (attempt : Nat)
  | linking (attempt : Nat) (record : LockRecord)
  | linked (record : LockRecord)
  | contested (attempt : Nat)
  | judging (attempt : Nat) (holder : LockRecord)
  | rechecking (attempt : Nat) (holder : LockRecord)
  | reclaiming (attempt : Nat) (holder : LockRecord)
  | refused
  | ready
  | asserting (state : StoredState Data)
  | looking (state : StoredState Data)
  | loading (state : StoredState Data)
  | opening (current : Option (StoredState Data)) (state : StoredState Data)
  | writing (current : Option (StoredState Data)) (state : StoredState Data)
  | replacing (current : Option (StoredState Data)) (state : StoredState Data)
  | syncing (state : StoredState Data)
  | releasing (nonce : Nonce)
  | unlinking (nonce : Nonce)
deriving DecidableEq, Repr

structure Handle (Data : Type) where
  process : Nat
  nonce : Option Nonce := none
  tmpCounter : Nat := 0
  phase : Phase Data := .drafting 0
deriving DecidableEq, Repr

structure Process where
  pid : Nat
  start : Nat
deriving DecidableEq, Repr

/-- A save that has replaced the state file, and the state it was checked against. -/
structure Replaced (Data : Type) where
  current : Option (StoredState Data)
  state : StoredState Data
deriving DecidableEq, Repr

structure World (Data : Type) where
  lock : Option LockFile := none
  file : Option (FileContent Data) := none
  /-- The temporary files, by process id and counter. -/
  tmps : Nat → Nat → Option (FileContent Data) := fun _ _ => none
  processes : Nat → Option Process := fun _ => none
  /-- The process that runs under a process id. -/
  running : Nat → Option Nat := fun _ => none
  handles : Nat → Option (Handle Data) := fun _ => none
  replaced : List (Replaced Data) := []
  /-- The saves that have returned. -/
  saved : List (StoredState Data) := []

inductive Label (Data : Type) where
  | spawn (process pid start : Nat)
  | crash (process : Nat)
  | openStore (handle process : Nat)
  | save (handle : Nat) (state : StoredState Data)
  | release (handle : Nat)
  /-- The next call of a handle; `seen` is the start time that it is told, if any. -/
  | run (handle : Nat) (seen : Option Nat)
deriving DecidableEq, Repr

namespace World

variable {Data : Type}

def startTimeOf (world : World Data) (pid : Nat) : Option Nat :=
  (world.running pid).bind fun process => (world.processes process).map Process.start

/-- Start times may be unreadable, but they are not wrong. -/
def truthful (world : World Data) (pid : Nat) (seen : Option Nat) : Bool :=
  seen == none || seen == world.startTimeOf pid

def stillHolding (world : World Data) (holder : LockRecord) (seen : Option Nat) : Bool :=
  match world.running holder.pid with
  | none => false
  | some _ =>
      match holder.startedAt, seen with
      | some started, some now => started == now
      | _, _ => true

def alive (world : World Data) (process : Nat) : Bool :=
  match world.processes process with
  | none => false
  | some found => world.running found.pid == some process

def setHandle (world : World Data) (id : Nat) (handle : Handle Data) : World Data :=
  { world with handles := Function.update world.handles id (some handle) }

def retry (attempt : Nat) : Phase Data :=
  if attempt + 1 < 3 then .drafting (attempt + 1) else .refused

def checked (current : Option (StoredState Data)) (state : StoredState Data) : Phase Data :=
  if state.version = versionOf current + 1 then .opening current state else .ready

variable (digestOf : StoredState Data → String)

def advance (world : World Data) (id : Nat) (handle : Handle Data) (process : Process)
    (seen : Option Nat) : Option (World Data) :=
  let onward (phase : Phase Data) : Handle Data := { handle with phase := phase }
  match handle.phase with
  | .drafting attempt =>
      if world.truthful process.pid seen then
        some (world.setHandle id (onward (.linking attempt
          { pid := process.pid, nonce := .drawn id attempt, startedAt := seen })))
      else none
  | .linking attempt record =>
      match world.lock with
      | none =>
          some ({ world with lock := some (.record record) }.setHandle id
            (onward (.linked record)))
      | some _ => some (world.setHandle id (onward (.contested attempt)))
  | .linked record =>
      some (world.setHandle id { handle with nonce := some record.nonce, phase := .ready })
  | .contested attempt =>
      match readLock world.lock with
      | none => some (world.setHandle id (onward .refused))
      | some holder => some (world.setHandle id (onward (.judging attempt holder)))
  | .judging attempt holder =>
      if world.truthful holder.pid seen then
        some (world.setHandle id (onward
          (if world.stillHolding holder seen then .refused else .rechecking attempt holder)))
      else none
  | .rechecking attempt holder =>
      some (world.setHandle id (onward
        (if nonceOf world.lock = some holder.nonce then .reclaiming attempt holder
          else retry attempt)))
  | .reclaiming attempt _ =>
      some ({ world with lock := none }.setHandle id (onward (retry attempt)))
  | .refused => none
  | .ready => none
  | .asserting state =>
      some (world.setHandle id (onward
        (if handle.nonce.isSome ∧ nonceOf world.lock = handle.nonce then .looking state
          else .ready)))
  | .looking state =>
      some (world.setHandle id (onward
        (if world.file.isSome then .loading state else checked none state)))
  | .loading state =>
      match readState digestOf world.file with
      | .error _ => some (world.setHandle id (onward .ready))
      | .ok current => some (world.setHandle id (onward (checked current state)))
  | .opening current state =>
      some ({ world with
        tmps := Function.update world.tmps process.pid
          (Function.update (world.tmps process.pid) (handle.tmpCounter + 1) (some .empty)) }.setHandle
        id { handle with tmpCounter := handle.tmpCounter + 1, phase := .writing current state })
  | .writing current state =>
      some ({ world with
        tmps := Function.update world.tmps process.pid
          (Function.update (world.tmps process.pid) handle.tmpCounter
            (some (.envelope (envelopeOf digestOf state)))) }.setHandle
        id (onward (.replacing current state)))
  | .replacing current state =>
      match world.tmps process.pid handle.tmpCounter with
      | none => some (world.setHandle id (onward .ready))
      | some content =>
          some ({ world with
            file := some content
            tmps := Function.update world.tmps process.pid
              (Function.update (world.tmps process.pid) handle.tmpCounter none)
            replaced := world.replaced ++ [Replaced.mk current state] }.setHandle
            id (onward (.syncing state)))
  | .syncing state =>
      some ({ world with saved := world.saved ++ [state] }.setHandle id (onward .ready))
  | .releasing nonce =>
      some (world.setHandle id (onward
        (if nonceOf world.lock = some nonce then .unlinking nonce else .ready)))
  | .unlinking _ => some ({ world with lock := none }.setHandle id (onward .ready))

def act (world : World Data) : Label Data → Option (World Data)
  | .spawn process pid start =>
      if world.processes process = none ∧ world.running pid = none then
        some { world with
          processes := Function.update world.processes process (some { pid := pid, start := start })
          running := Function.update world.running pid (some process) }
      else none
  | .crash process =>
      match world.processes process with
      | none => none
      | some found =>
          if world.running found.pid = some process then
            some { world with running := Function.update world.running found.pid none }
          else none
  | .openStore id process =>
      if world.handles id = none ∧ world.alive process = true then
        some (world.setHandle id { process := process })
      else none
  | .save id state =>
      match world.handles id with
      | some ({ phase := .ready, process, nonce, tmpCounter } : Handle Data) =>
          if world.alive process then
            some (world.setHandle id { process, nonce, tmpCounter, phase := .asserting state })
          else none
      | _ => none
  | .release id =>
      match world.handles id with
      | some ({ phase := .ready, process, nonce := some nonce, tmpCounter } : Handle Data) =>
          if world.alive process then
            some (world.setHandle id
              { process, nonce := none, tmpCounter, phase := .releasing nonce })
          else none
      | _ => none
  | .run id seen =>
      match world.handles id with
      | none => none
      | some handle =>
          match world.processes handle.process with
          | none => none
          | some process =>
              if world.running process.pid = some handle.process then
                world.advance digestOf id handle process seen
              else none

end World

end Barycenter.Dp.Files
