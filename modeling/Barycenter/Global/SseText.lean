import Mathlib.Data.List.Basic

/-!
# The text of an event stream

A frame ends with an empty line.  Cutting a text into frames does not depend on
how the text was split into chunks: what is left over is continued by the next
chunk.

The relay asks a regular expression whether a frame is a snapshot; the viewer
reads the frame field by field.
-/

namespace Barycenter.Global

abbrev Text := List Char

/-! ## Frames -/

/-- The text up to the first empty line, and what follows it. -/
def nextFrame : Text → Option (Text × Text)
  | '\n' :: '\n' :: rest => some (['\n', '\n'], rest)
  | first :: rest => (nextFrame rest).map fun (frame, rest) => (first :: frame, rest)
  | [] => none

/-- All frames that are complete, and what is left over. -/
def framesOf : Text → List Text × Text
  | '\n' :: '\n' :: rest => (['\n', '\n'] :: (framesOf rest).1, (framesOf rest).2)
  | first :: rest =>
      match framesOf rest with
      | (frame :: frames, left) => ((first :: frame) :: frames, left)
      | ([], left) => ([], first :: left)
  | [] => ([], [])

variable {text frame rest : Text}

theorem framesOf_of_nextFrame (found : nextFrame text = some (frame, rest)) :
    framesOf text = (frame :: (framesOf rest).1, (framesOf rest).2) := by
  induction text using nextFrame.induct generalizing frame with
  | case1 after =>
      rw [nextFrame, Option.some.injEq, Prod.mk.injEq] at found
      obtain ⟨rfl, rfl⟩ := found
      rw [framesOf]
  | case2 first after ordinary induction =>
      rw [nextFrame] at found
      · obtain ⟨⟨tail, left⟩, inner, whole⟩ := Option.map_eq_some_iff.mp found
        cases whole
        rw [framesOf, induction inner]
        exact ordinary
      · exact ordinary
  | case3 => cases found

theorem framesOf_of_no_frame {text : Text} (none : nextFrame text = none) :
    framesOf text = ([], text) := by
  induction text using nextFrame.induct with
  | case1 after => simp [nextFrame] at none
  | case2 first after ordinary induction =>
      rw [nextFrame] at none
      · rw [framesOf, induction (by simpa using none)]
        exact ordinary
      · exact ordinary
  | case3 => rfl

theorem nextFrame_split (found : nextFrame text = some (frame, rest)) :
    text = frame ++ rest ∧ frame ≠ [] := by
  induction text using nextFrame.induct generalizing frame with
  | case1 after =>
      rw [nextFrame, Option.some.injEq, Prod.mk.injEq] at found
      obtain ⟨rfl, rfl⟩ := found
      simp
  | case2 first after ordinary induction =>
      rw [nextFrame] at found
      · obtain ⟨⟨tail, left⟩, inner, whole⟩ := Option.map_eq_some_iff.mp found
        cases whole
        simp [(induction inner).1]
      · exact ordinary
  | case3 => cases found

theorem nextFrame_append (chunk : Text) (found : nextFrame text = some (frame, rest)) :
    nextFrame (text ++ chunk) = some (frame, rest ++ chunk) := by
  induction text using nextFrame.induct generalizing frame with
  | case1 after =>
      rw [nextFrame, Option.some.injEq, Prod.mk.injEq] at found
      obtain ⟨rfl, rfl⟩ := found
      simp [nextFrame]
  | case2 first after ordinary induction =>
      rw [nextFrame] at found
      · obtain ⟨⟨tail, left⟩, inner, whole⟩ := Option.map_eq_some_iff.mp found
        cases whole
        have later := induction inner
        rw [List.cons_append, nextFrame]
        · simp [later]
        · intro more feed same
          cases after with
          | nil => simp [nextFrame] at inner
          | cons second others =>
              simp only [List.cons_append, List.cons.injEq] at same
              exact ordinary others feed (by rw [same.1])
      · exact ordinary
  | case3 => cases found

theorem framesOf_append (text chunk : Text) :
    framesOf (text ++ chunk) =
      ((framesOf text).1 ++ (framesOf ((framesOf text).2 ++ chunk)).1,
        (framesOf ((framesOf text).2 ++ chunk)).2) := by
  cases found : nextFrame text with
  | none => simp [framesOf_of_no_frame found]
  | some pair =>
      obtain ⟨frame, rest⟩ := pair
      have shorter : rest.length < text.length := by
        obtain ⟨whole, nonempty⟩ := nextFrame_split found
        have positive := List.length_pos_of_ne_nil nonempty
        rw [whole, List.length_append]
        omega
      rw [framesOf_of_nextFrame (nextFrame_append chunk found), framesOf_append rest chunk,
        framesOf_of_nextFrame found]
      rfl
termination_by text.length

/-! ## Lines -/

/-- The characters at which `^` and `$` match under the `m` flag. -/
def isLineTerminator (char : Char) : Bool :=
  char == '\n' || char == '\r' || char == '\u2028' || char == '\u2029'

/-- The test `/^event: snapshot$/m`. -/
def testsSnapshot (frame : Text) : Bool :=
  (frame.splitOnP isLineTerminator).any (· == "event: snapshot".toList)

def isHeartbeat (frame : Text) : Bool :=
  (frame.splitOn '\n').all fun line => line.isEmpty || line.head? == some ':'

/-! ## What a viewer reads -/

structure SseMessage where
  event : Text := "message".toList
  id : Option Text := none
  data : List Text := []
deriving DecidableEq, Repr

def dropSpace : Text → Text
  | ' ' :: value => value
  | value => value

def fieldOf (line : Text) : Text × Text :=
  match line.span (· != ':') with
  | (name, []) => (name, [])
  | (name, _ :: value) => (name, dropSpace value)

def SseMessage.readLine (message : SseMessage) (line : Text) : SseMessage :=
  if line.head? == some ':' then message
  else
    let (name, value) := fieldOf line
    if name = "event".toList then { message with event := value }
    else if name = "id".toList then { message with id := some value }
    else if name = "data".toList then { message with data := message.data ++ [value] }
    else message

def parseBlock (block : Text) : Option SseMessage :=
  let message := (block.splitOn '\n').foldl SseMessage.readLine {}
  if message.data = [] then none else some message

def blockOf (frame : Text) : Text := frame.take (frame.length - 2)

def messageOf (frame : Text) : Option SseMessage := parseBlock (blockOf frame)

def SseMessage.isSnapshot (message : SseMessage) : Bool := message.event == "snapshot".toList

def readsSnapshot (frame : Text) : Bool := (messageOf frame).any SseMessage.isSnapshot

theorem nextFrame_ends (found : nextFrame text = some (frame, rest)) :
    frame = blockOf frame ++ ['\n', '\n'] := by
  induction text using nextFrame.induct generalizing frame with
  | case1 after =>
      rw [nextFrame, Option.some.injEq, Prod.mk.injEq] at found
      obtain ⟨rfl, rfl⟩ := found
      rfl
  | case2 first after ordinary induction =>
      rw [nextFrame] at found
      · obtain ⟨⟨tail, left⟩, inner, whole⟩ := Option.map_eq_some_iff.mp found
        cases whole
        have ends := induction inner
        have long : 2 ≤ tail.length := by
          rw [ends, List.length_append]
          simp
        have block : blockOf (first :: tail) = first :: blockOf tail := by
          have size : (first :: tail).length - 2 = (tail.length - 2) + 1 := by
            rw [List.length_cons]
            omega
          rw [blockOf, size, List.take_succ_cons, blockOf]
        rw [block, List.cons_append, ← ends]
      · exact ordinary
  | case3 => cases found

theorem messageOf_heartbeat {frame : Text} (ends : frame = blockOf frame ++ ['\n', '\n'])
    (heartbeat : isHeartbeat frame = true) : messageOf frame = none := by
  rw [isHeartbeat, ends, List.splitOn_append_cons_self, List.all_append,
    Bool.and_eq_true] at heartbeat
  have silent : ∀ (lines : List Text) (message : SseMessage),
      lines.all (fun line => line.isEmpty || line.head? == some ':') = true →
        lines.foldl SseMessage.readLine message = message := by
    intro lines
    induction lines with
    | nil => simp
    | cons line rest induction =>
        intro message quiet
        rw [List.all_cons, Bool.and_eq_true] at quiet
        rw [List.foldl_cons]
        have unread : message.readLine line = message := by
          cases line with
          | nil => rfl
          | cons first others =>
              have comment : first = ':' := by simpa using quiet.1
              simp [SseMessage.readLine, comment]
        rw [unread]
        exact induction message quiet.2
  simp [messageOf, parseBlock, silent _ _ heartbeat.1]

end Barycenter.Global
