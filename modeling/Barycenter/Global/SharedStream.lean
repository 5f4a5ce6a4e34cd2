import Barycenter.Foundation.History
import Barycenter.Global.SseText
import Mathlib.Logic.Function.Basic

/-!
# The shared stream of a region

One upstream connection serves all viewers of a region.  Its frames go to the
viewers as they are, and those since the last snapshot are kept for whoever
comes late.  When too many have gathered, the upstream is opened anew; what the
replaced connection still says is not heard.
-/

namespace Barycenter.Global

def replayMax : Nat := 1000

structure Viewer where
  headersSent : Bool := false
  written : List Text := []
  ended : Bool := false
  /-- What had been written when the current connection was opened. -/
  before : List Text := []
  /-- How many frames the current connection had delivered when the viewer was
  greeted, and how many had been delivered at all. -/
  joined : Nat := 0
  missed : Nat := 0
deriving DecidableEq, Repr

namespace Viewer

def write (viewer : Viewer) (text : Text) : Viewer :=
  { viewer with written := viewer.written ++ [text] }

def greet (replay : List Text) (joined missed : Nat) (viewer : Viewer) : Viewer :=
  { viewer with
    headersSent := true
    written := viewer.written ++ replay
    joined := joined
    missed := missed }

def mark (viewer : Viewer) : Viewer :=
  { viewer with before := viewer.written, joined := 0 }

/-- The answer that is not a stream, or that there is none, ends the response. -/
def refuse (body : Option Text) (viewer : Viewer) : Viewer :=
  { viewer with
    headersSent := true
    written := viewer.written ++ body.toList
    ended := true }

def finish (viewer : Viewer) : Viewer := { viewer with ended := true }

end Viewer

structure SharedStream where
  /-- The number of the current upstream connection. -/
  up : Nat := 0
  subs : List Nat := []
  live : Bool := false
  replay : List Text := []
  buf : Text := []
  idle : Bool := false
  gone : Bool := false
  viewers : Nat → Option Viewer := fun _ => none
  /-- The status of the answers that are being listened to. -/
  answers : Nat → Option Nat := fun _ => none
  /-- Every frame that any connection has delivered. -/
  delivered : List Text := []
  /-- The text of the current connection, and the frames it has delivered. -/
  text : Text := []
  connection : List Text := []

inductive SharedLabel where
  | join (viewer : Nat)
  | leave (viewer : Nat)
  | idleTimeout
  | shutdown
  | response (up status : Nat)
  | data (up : Nat) (chunk : Text)
  /-- The answer of a connection ends, or fails. -/
  | ended (up : Nat)
  /-- The answer that was not a stream is complete. -/
  | refused (up : Nat) (body : Text)
  | requestError (up : Nat) (message : Text)
deriving DecidableEq, Repr

namespace SharedStream

def current (stream : SharedStream) (up : Nat) : Bool := stream.up == up && !stream.gone

/-- Something is done with the responses of some viewers. -/
def withViewers (stream : SharedStream) (ids : List Nat) (action : Viewer → Viewer) :
    SharedStream :=
  { stream with
    viewers := fun id =>
      if id ∈ ids then (stream.viewers id).map action else stream.viewers id }

def shutdown (stream : SharedStream) : SharedStream :=
  if stream.gone then stream
  else
    { stream.withViewers stream.subs Viewer.finish with
      gone := true
      idle := false
      subs := [] }

/-- A new upstream is opened.  Viewers keep what they have. -/
def connect (stream : SharedStream) : SharedStream :=
  { stream with
    up := stream.up + 1
    live := false
    replay := []
    buf := []
    text := []
    connection := []
    viewers := fun id => (stream.viewers id).map Viewer.mark }

def deliver (stream : SharedStream) (frame : Text) : SharedStream :=
  { stream.withViewers stream.subs (Viewer.write · frame) with
    delivered := stream.delivered ++ [frame]
    connection := stream.connection ++ [frame] }

/-- The loop of `feed`.  A replay that has grown too long ends it. -/
def drain : Nat → SharedStream → SharedStream
  | 0, stream => stream
  | fuel + 1, stream =>
      match nextFrame stream.buf with
      | none => stream
      | some (frame, rest) =>
          let delivered := { stream with buf := rest }.deliver frame
          if isHeartbeat frame then drain fuel delivered
          else if testsSnapshot frame then drain fuel { delivered with replay := [frame] }
          else if stream.replay.length + 1 > replayMax then delivered.connect
          else drain fuel { delivered with replay := stream.replay ++ [frame] }

def feed (stream : SharedStream) (chunk : Text) : SharedStream :=
  drain (stream.buf.length + chunk.length)
    { stream with
      buf := stream.buf ++ chunk
      text := stream.text ++ chunk }

def greetAll (stream : SharedStream) (ids : List Nat) : SharedStream :=
  stream.withViewers ids fun viewer =>
    if viewer.headersSent then viewer
    else viewer.greet stream.replay stream.connection.length stream.delivered.length

def join (stream : SharedStream) (viewer : Nat) : SharedStream :=
  let joined :=
    { stream with
      idle := false
      subs := stream.subs ++ [viewer]
      viewers := Function.update stream.viewers viewer (some {}) }
  if stream.live then joined.greetAll [viewer] else joined

def leave (stream : SharedStream) (viewer : Nat) : SharedStream :=
  let left := { stream with subs := stream.subs.erase viewer }
  if left.subs.length > 0 || stream.gone then left else { left with idle := true }

/-- The upstream answered.  What a replaced connection answers is not read. -/
def response (stream : SharedStream) (up status : Nat) : SharedStream :=
  if !stream.current up then stream
  else
    let listening := { stream with answers := Function.update stream.answers up (some status) }
    if status ≠ 200 then listening
    else { listening with live := true }.greetAll stream.subs

/-- Everyone is given the answer, and the stream is over. -/
def refuseAll (stream : SharedStream) (body : Option Text) : SharedStream :=
  ({ stream.withViewers stream.subs (Viewer.refuse body) with subs := [] } :
    SharedStream).shutdown

/-- A request that failed is told to those who have received nothing yet. -/
def failAll (stream : SharedStream) (message : Text) : SharedStream :=
  ({ stream.withViewers stream.subs fun viewer =>
      if viewer.headersSent then viewer.finish else viewer.refuse (some message) with
    subs := [] } : SharedStream).shutdown

def act (stream : SharedStream) : SharedLabel → Option SharedStream
  | .join viewer =>
      if stream.gone ∨ (stream.viewers viewer).isSome then none else some (stream.join viewer)
  | .leave viewer =>
      match stream.viewers viewer with
      | none => none
      | some _ => some (stream.leave viewer)
  | .idleTimeout => if stream.idle then some stream.shutdown else none
  | .shutdown => some stream.shutdown
  | .response up status =>
      if stream.up < up ∨ (stream.answers up).isSome then none
      else some (stream.response up status)
  | .data up chunk =>
      if stream.answers up = some 200 then
        some (if stream.current up then stream.feed chunk else stream)
      else none
  | .ended up =>
      if stream.answers up = some 200 then
        some (if stream.current up then stream.shutdown else stream)
      else none
  | .refused up body =>
      match stream.answers up with
      | none => none
      | some status => if status = 200 then none else some (stream.refuseAll (some body))
  | .requestError up message =>
      if stream.up < up then none
      else some (if stream.current up then stream.failAll message else stream)

end SharedStream

end Barycenter.Global
