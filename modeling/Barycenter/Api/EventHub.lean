import Barycenter.Foundation.History
import Mathlib.Data.List.Nodup
import Mathlib.Logic.Function.Basic

/-!
# The event hub and its streams

A stream reads its snapshot part by part, each part at its own moment.  When
every part is there, it writes the snapshot and only then subscribes to the hub.
The hub keeps no past events, so a publication reaches the streams that are
subscribed at that moment.

A part of the state is given by the changes it has taken.  What an event
announces is one change of one part.
-/

namespace Barycenter.Api

def maxSseBufferBytes : Nat := 4 * 1024 * 1024

inductive EventData (Part Change : Type) where
  | snapshot (content : List (Part × List Change))
  | change (part : Part) (change : Change)
deriving DecidableEq, Repr

structure SseEvent (Part Change : Type) where
  event : String
  data : EventData Part Change
  id : Option String := none
deriving DecidableEq, Repr

inductive SseFrame (Part Change : Type) where
  | event (sent : SseEvent Part Change)
  | heartbeat
deriving DecidableEq, Repr

namespace SseFrame

variable {Part Change : Type}

/-- Heartbeats are comments, which a viewer does not take for events. -/
def event? : SseFrame Part Change → Option (SseEvent Part Change)
  | .event sent => some sent
  | .heartbeat => none

end SseFrame

/-! ## The response of a stream -/

structure ServerResponse (Part Change : Type) where
  destroyed : Bool := false
  writableEnded : Bool := false
  writableLength : Nat := 0
  written : List (SseFrame Part Change) := []
deriving DecidableEq, Repr

namespace ServerResponse

variable {Part Change : Type}

def gone (response : ServerResponse Part Change) : Bool :=
  response.destroyed || response.writableEnded

/-- A destroyed or ended response takes no more frames. -/
def write (response : ServerResponse Part Change) (frame : SseFrame Part Change) :
    ServerResponse Part Change :=
  if response.gone then response
  else { response with written := response.written ++ [frame] }

def writable (response : ServerResponse Part Change) : Bool :=
  !response.destroyed && !response.writableEnded &&
    decide (response.writableLength ≤ maxSseBufferBytes)

def events (response : ServerResponse Part Change) : List (SseEvent Part Change) :=
  response.written.filterMap SseFrame.event?

@[simp] theorem write_gone (response : ServerResponse Part Change)
    (frame : SseFrame Part Change) : (response.write frame).gone = response.gone := by
  unfold write
  split <;> rfl

@[simp] theorem events_write_heartbeat (response : ServerResponse Part Change) :
    (response.write .heartbeat).events = response.events := by
  unfold write events
  split <;> simp [SseFrame.event?]

theorem events_write_event (response : ServerResponse Part Change)
    (sent : SseEvent Part Change)
    (usable : response.gone = false) :
    (response.write (.event sent)).events = response.events ++ [sent] := by
  simp [write, usable, events, SseFrame.event?]

theorem not_gone_of_writable {response : ServerResponse Part Change}
    (writable : response.writable = true) : response.gone = false := by
  simp only [ServerResponse.writable, Bool.and_eq_true, Bool.not_eq_true'] at writable
  simp [gone, writable.1.1, writable.1.2]

end ServerResponse

/-! ## One stream -/

inductive StreamPhase (Part Change : Type) where
  /-- The snapshot is awaited; these parts of it have been read. -/
  | reading (content : List (Part × List Change))
  | subscribed
  /-- The call has returned or thrown before it subscribed. -/
  | left
deriving DecidableEq, Repr

structure EventStream (Part Change : Type) where
  phase : StreamPhase Part Change := .reading []
  closed : Bool := false
  response : ServerResponse Part Change := {}
deriving DecidableEq, Repr

namespace EventStream

variable {Part Change : Type}

def finish (graceful : Bool) (stream : EventStream Part Change) : EventStream Part Change :=
  if stream.closed then stream
  else if graceful && !stream.response.destroyed && !stream.response.writableEnded then
    { stream with closed := true, response := { stream.response with writableEnded := true } }
  else { stream with closed := true, response := { stream.response with destroyed := true } }

/-- The callback of the subscription.  A frame that cannot be encoded throws. -/
def receive (encodes : Bool) (framed : SseEvent Part Change)
    (stream : EventStream Part Change) : EventStream Part Change :=
  if !stream.response.writable then stream.finish false
  else if encodes then { stream with response := stream.response.write (.event framed) }
  else stream.finish false

def beat (stream : EventStream Part Change) : EventStream Part Change :=
  { stream with response := stream.response.write .heartbeat }

/-- The timer.  Where the session is asked, the heartbeat waits for the answer. -/
def tick (asks : Bool) (stream : EventStream Part Change) : EventStream Part Change :=
  if !stream.response.writable then stream.finish false
  else if asks then stream
  else stream.beat

def answered (alive : Bool) (stream : EventStream Part Change) : EventStream Part Change :=
  if alive then stream.beat else stream.finish true

def begin (encodes : Bool) (content : List (Part × List Change))
    (stream : EventStream Part Change) : EventStream Part Change :=
  if stream.closed || !encodes then { stream with phase := .left }
  else
    { stream with
      phase := .subscribed
      response := stream.response.write (.event ⟨"snapshot", .snapshot content, none⟩) }

@[simp] theorem finish_phase (graceful : Bool) (stream : EventStream Part Change) :
    (stream.finish graceful).phase = stream.phase := by
  unfold finish
  split
  · rfl
  · split <;> rfl

@[simp] theorem finish_closed (graceful : Bool) (stream : EventStream Part Change) :
    (stream.finish graceful).closed = true := by
  unfold finish
  split
  · assumption
  · split <;> rfl

@[simp] theorem receive_phase (encodes : Bool) (framed : SseEvent Part Change)
    (stream : EventStream Part Change) :
    (stream.receive encodes framed).phase = stream.phase := by
  unfold receive
  split
  · simp
  · split <;> simp

theorem events_receive {encodes : Bool} {framed : SseEvent Part Change}
    {stream : EventStream Part Change}
    (stays : (stream.receive encodes framed).closed = false) :
    stream.closed = false ∧
      (stream.receive encodes framed).response.events = stream.response.events ++ [framed] := by
  unfold receive at stays ⊢
  split at stays
  · simp at stays
  · rename_i writable
    split at stays
    · rename_i encoded
      simp only [Bool.not_eq_true', Bool.not_eq_false] at writable
      refine ⟨stays, ?_⟩
      simp only [writable, Bool.not_true, Bool.false_eq_true, if_false, encoded, if_true]
      exact ServerResponse.events_write_event _ _ (ServerResponse.not_gone_of_writable writable)
    · simp at stays

@[simp] theorem beat_phase (stream : EventStream Part Change) :
    stream.beat.phase = stream.phase := rfl

@[simp] theorem beat_closed (stream : EventStream Part Change) :
    stream.beat.closed = stream.closed := rfl

@[simp] theorem beat_events (stream : EventStream Part Change) :
    stream.beat.response.events = stream.response.events := by
  simp [beat]

end EventStream

/-! ## The hub and its steps -/

structure HubWorld (Part Change : Type) where
  database : Part → List Change := fun _ => []
  count : Nat := 0
  subs : List Nat := []
  closers : List Nat := []
  streams : Nat → Option (EventStream Part Change) := fun _ => none
  /-- Every event the hub was given, in order.  The hub does not keep it. -/
  published : List (SseEvent Part Change) := []

inductive HubLabel (Part Change : Type) where
  | commit (part : Part) (change : Change)
  | publish (event : String) (part : Part) (change : Change) (encodes : Bool)
  | openEventStream (id : Nat)
  | read (id : Nat) (part : Part)
  | snapshot (id : Nat) (encodes : Bool)
  | reject (id : Nat)
  | disconnect (id : Nat)
  | close (id : Nat)
  | pressure (id : Nat) (length : Nat)
  | tick (id : Nat) (asks : Bool)
  | answered (id : Nat) (alive : Bool)
  | closeAll
deriving DecidableEq, Repr

namespace HubWorld

variable {Part Change : Type}

/-- One stream goes on.  A stream that closes takes its callbacks out of the hub. -/
def update (world : HubWorld Part Change) (id : Nat)
    (action : EventStream Part Change → EventStream Part Change) : HubWorld Part Change :=
  match world.streams id with
  | none => world
  | some stream =>
      { world with
        streams := Function.update world.streams id (some (action stream))
        subs := if (action stream).closed then world.subs.erase id else world.subs
        closers := if (action stream).closed then world.closers.erase id else world.closers }

def updateAll (ids : List Nat) (action : EventStream Part Change → EventStream Part Change)
    (world : HubWorld Part Change) : HubWorld Part Change :=
  ids.foldl (fun world id => world.update id action) world

def framed (world : HubWorld Part Change) (event : String) (part : Part) (change : Change) :
    SseEvent Part Change :=
  { event := event, data := .change part change, id := some (toString (world.count + 1)) }

def publish (world : HubWorld Part Change) (event : String) (part : Part) (change : Change)
    (encodes : Bool) : HubWorld Part Change :=
  let framed := world.framed event part change
  updateAll world.subs (EventStream.receive encodes framed)
    { world with count := world.count + 1, published := world.published ++ [framed] }

/-- It goes over a copy, since closing takes entries away. -/
def closeAll (world : HubWorld Part Change) : HubWorld Part Change :=
  updateAll world.closers (EventStream.finish true) world

variable [DecidableEq Part]

def readPart (world : HubWorld Part Change) (part : Part) (stream : EventStream Part Change) :
    EventStream Part Change :=
  match stream.phase with
  | .reading content => { stream with phase := .reading (content ++ [(part, world.database part)]) }
  | _ => stream

/-- The snapshot resolves when all its parts have been read. -/
def begin (world : HubWorld Part Change) (id : Nat) (encodes : Bool)
    (content : List (Part × List Change)) (stream : EventStream Part Change) :
    HubWorld Part Change :=
  let begun := world.update id (EventStream.begin encodes content)
  if stream.closed || !encodes then begun else { begun with subs := begun.subs ++ [id] }

def act (parts : List Part) (world : HubWorld Part Change) :
    HubLabel Part Change → Option (HubWorld Part Change)
  | .commit part change =>
      some { world with
        database := Function.update world.database part (world.database part ++ [change]) }
  | .publish event part change encodes => some (world.publish event part change encodes)
  | .openEventStream id =>
      match world.streams id with
      | some _ => none
      | none =>
          some { world with
            streams := Function.update world.streams id (some {})
            closers := world.closers ++ [id] }
  | .read id part =>
      match world.streams id with
      | some { phase := .reading content, .. } =>
          if part ∈ parts ∧ part ∉ content.map Prod.fst then
            some (world.update id (world.readPart part))
          else none
      | _ => none
  | .snapshot id encodes =>
      match world.streams id with
      | some { phase := .reading content, closed, response } =>
          if ∀ part ∈ parts, part ∈ content.map Prod.fst then
            some (world.begin id encodes content
              { phase := .reading content, closed, response })
          else none
      | _ => none
  | .reject id =>
      match world.streams id with
      | some { phase := .reading _, .. } =>
          some (world.update id fun stream => { stream with phase := .left })
      | _ => none
  | .disconnect id =>
      some (world.update id fun stream =>
        { stream with response := { stream.response with destroyed := true } })
  | .close id => some (world.update id (EventStream.finish false))
  | .pressure id length =>
      some (world.update id fun stream =>
        { stream with response := { stream.response with writableLength := length } })
  | .tick id asks =>
      match world.streams id with
      | some { phase := .subscribed, closed := false, .. } =>
          some (world.update id (EventStream.tick asks))
      | _ => none
  | .answered id alive =>
      match world.streams id with
      | some { phase := .subscribed, .. } => some (world.update id (EventStream.answered alive))
      | _ => none
  | .closeAll => some world.closeAll

end HubWorld

/-- What the snapshot of `/api/v1/events` reads: the status and the health rows. -/
inductive SnapshotPart where
  | head
  | failedApply
  | driver
  | pendingApplies
  | leader
  | health
deriving DecidableEq, Repr

def snapshotParts : List SnapshotPart :=
  [.head, .failedApply, .driver, .pendingApplies, .leader, .health]

end Barycenter.Api
