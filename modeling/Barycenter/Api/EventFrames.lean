import Barycenter.Conf.Ast
import Barycenter.Global.LateViewer
import Mathlib.Data.List.TakeDrop

/-!
# Event frames on the wire

The server writes a frame for each event and one for each heartbeat, the browser
pulls them out of what it has read so far, and the relay of another region cuts the
same text once more to pass it on and to keep what a late viewer needs.  The JSON
encoder is any that reads back what it wrote and escapes control characters.
-/

namespace Barycenter

namespace EventFrames

open Global

/-- `JSON.stringify` and `JSON.parse` on the data that JSON can write. -/
structure Json (δ : Type) where
  stringify : δ → Text
  parse : Text → Option δ
  parse_stringify : ∀ data, parse (stringify data) = some data
  printable : ∀ data, ∀ char ∈ stringify data, ' ' ≤ char

structure SseEvent (δ : Type) where
  event : Text
  data : δ
  id : Option Text

variable {δ : Type} (json : Json δ)

/-! ## Writing -/

def line (field : String) (value : Text) : Text := field.toList ++ value ++ ['\n']

def writeSse (ev : SseEvent δ) : Text :=
  (match ev.id with
    | some id => line "id: " id
    | none => []) ++
  line "event: " ev.event ++
  ((json.stringify ev.data).splitOn '\n').flatMap (line "data: ") ++ ['\n']

def writeHeartbeat : Text := ": hb\n\n".toList

inductive Item (δ : Type) where
  | event (ev : SseEvent δ)
  | heartbeat

def write : Item δ → Text
  | .event ev => writeSse json ev
  | .heartbeat => writeHeartbeat

def wire (items : List (Item δ)) : Text := items.flatMap (write json)

/-! ## Reading -/

/-- The data of a frame, or its text when that is no JSON. -/
inductive FrameData (δ : Type) where
  | parsed (data : δ)
  | raw (text : Text)

inductive SseFrame (δ : Type) where
  | event (event : Text) (data : FrameData δ) (id : Option Text)
  | comment (text : Text)

def trim (text : Text) : Text := (text.dropWhile Conf.isSpace).rdropWhile Conf.isSpace

def commentsOf (block : Text) : List Text :=
  ((block.splitOn '\n').filter fun raw => raw.head? = some ':').map fun raw => trim (raw.drop 1)

def parseData (raw : Text) : FrameData δ :=
  match json.parse raw with
  | some data => .parsed data
  | none => .raw raw

/-- `parseBlock`: without data lines a block is a comment, or nothing. -/
def readBlock (block : Text) : Option (SseFrame δ) :=
  match parseBlock block with
  | some message =>
      some (.event message.event (parseData json (['\n'].intercalate message.data)) message.id)
  | none =>
      if commentsOf block = [] then none
      else some (.comment ([' '].intercalate (commentsOf block)))

def pullSse (buffer : Text) : List (SseFrame δ) × Text :=
  ((framesOf buffer).1.filterMap fun frame => readBlock json (blockOf frame), (framesOf buffer).2)

def pullNext (state : List (SseFrame δ) × Text) (chunk : Text) : List (SseFrame δ) × Text :=
  let pulled := pullSse json (state.2 ++ chunk)
  (state.1 ++ pulled.1, pulled.2)

def pullAll (chunks : List Text) : List (SseFrame δ) × Text :=
  chunks.foldl (pullNext json) ([], [])

/-! ## Frames as lines -/

def linesOf : Item δ → List Text
  | .event ev =>
      (match ev.id with
        | some id => ["id: ".toList ++ id]
        | none => []) ++
      ["event: ".toList ++ ev.event, "data: ".toList ++ json.stringify ev.data]
  | .heartbeat => [": hb".toList]

def endLines (lines : List Text) : Text := lines.flatMap fun text => text ++ ['\n']

def Item.Named : Item δ → Prop
  | .event ev => '\n' ∉ ev.event ∧ ∀ id ∈ ev.id, '\n' ∉ id
  | .heartbeat => True

theorem linesOf_ne_nil (item : Item δ) : linesOf json item ≠ [] := by
  cases item with
  | event ev =>
      intro none
      exact List.cons_ne_nil _ _ (List.append_eq_nil_iff.mp none).2
  | heartbeat => exact List.cons_ne_nil _ _

theorem splitOn_data {data : δ} : (json.stringify data).splitOn '\n' = [json.stringify data] := by
  apply List.splitOn_eq_singleton
  intro member
  exact absurd (json.printable data '\n' member) (by decide)

theorem write_eq_lines (item : Item δ) : write json item = endLines (linesOf json item) ++ ['\n'] := by
  cases item with
  | event ev =>
      cases ev with
      | mk event data id =>
          cases id <;> simp [write, writeSse, endLines, linesOf, line, splitOn_data]
  | heartbeat => rfl

variable {item : Item δ}

theorem mem_linesOf {text : Text} (member : text ∈ linesOf json item) :
    text = ": hb".toList ∨ ∃ ev, item = .event ev ∧
      ((∃ id, ev.id = some id ∧ text = "id: ".toList ++ id) ∨
        text = "event: ".toList ++ ev.event ∨ text = "data: ".toList ++ json.stringify ev.data) := by
  cases item with
  | heartbeat => exact .inl (List.mem_singleton.mp member)
  | event ev =>
      refine .inr ⟨ev, rfl, ?_⟩
      rcases List.mem_append.mp member with first | member
      · cases identified : ev.id with
        | none => simp [identified] at first
        | some own =>
            rw [identified] at first
            exact .inl ⟨own, rfl, List.mem_singleton.mp first⟩
      · rw [List.mem_cons, List.mem_singleton] at member
        exact .inr member

theorem linesOf_filled : ∀ text ∈ linesOf json item, text ≠ [] := by
  intro text member
  rcases mem_linesOf json member with rfl | ⟨ev, -, ⟨id, -, rfl⟩ | rfl | rfl⟩ <;>
    exact List.cons_ne_nil _ _

/-- What no character of the names, the ids and the data is, no character of a line is,
where none of the fixed texts has it. -/
theorem linesOf_plain {bad : Char → Prop}
    (fixed : ∀ start ∈ ["id: ", "event: ", "data: ", ": hb"], ∀ char ∈ start.toList, ¬ bad char)
    (plain : ∀ ev, item = .event ev → (∀ char ∈ ev.event, ¬ bad char) ∧
      (∀ id ∈ ev.id, ∀ char ∈ id, ¬ bad char) ∧ ∀ char ∈ json.stringify ev.data, ¬ bad char) :
    ∀ text ∈ linesOf json item, ∀ char ∈ text, ¬ bad char := by
  have joined : ∀ start ∈ ["id: ", "event: ", "data: ", ": hb"], ∀ text : Text,
      (∀ char ∈ text, ¬ bad char) → ∀ char ∈ start.toList ++ text, ¬ bad char := by
    intro start member text fine char found
    rcases List.mem_append.mp found with first | later
    · exact fixed start member char first
    · exact fine char later
  intro text member
  rcases mem_linesOf json member with rfl | ⟨ev, same, ⟨id, identified, rfl⟩ | rfl | rfl⟩
  · exact fixed ": hb" (by simp)
  · exact joined "id: " (by simp) id ((plain ev same).2.1 id identified)
  · exact joined "event: " (by simp) ev.event (plain ev same).1
  · exact joined "data: " (by simp) (json.stringify ev.data) (plain ev same).2.2

theorem linesOf_named (named : item.Named) :
    ∀ text ∈ linesOf json item, '\n' ∉ text := by
  have plain : ∀ text ∈ linesOf json item, ∀ char ∈ text, ¬ char = '\n' := by
    apply linesOf_plain json (by simp)
    rintro ev rfl
    obtain ⟨event, id⟩ := named
    refine ⟨fun char found same => event (same ▸ found), ?_, ?_⟩
    · intro own identified char found same
      exact id own identified (same ▸ found)
    · intro char found same
      subst same
      exact absurd (json.printable ev.data '\n' found) (by decide)
  intro text member found
  exact plain text member '\n' found rfl

/-! ## Cutting what was written -/

theorem nextFrame_cons {first : Char} (ordinary : first ≠ '\n') (text : Text) :
    nextFrame (first :: text) = (nextFrame text).map (Prod.map (List.cons first) id) := by
  rw [nextFrame]
  · rfl
  · intro rest feed
    exact absurd feed ordinary

theorem nextFrame_feed {second : Char} (ordinary : second ≠ '\n') (text : Text) :
    nextFrame ('\n' :: second :: text) =
      (nextFrame (second :: text)).map (Prod.map (List.cons '\n') id) := by
  rw [nextFrame]
  · rfl
  · intro rest feed same
    cases same
    exact absurd rfl ordinary

theorem nextFrame_line {text : Text} (plain : '\n' ∉ text) (rest : Text) :
    nextFrame (text ++ rest) = (nextFrame rest).map (Prod.map (text ++ ·) id) := by
  induction text with
  | nil =>
      rw [List.nil_append]
      cases nextFrame rest <;> rfl
  | cons first later induction =>
      rw [List.mem_cons, not_or] at plain
      rw [List.cons_append, nextFrame_cons (Ne.symm plain.1), induction plain.2, Option.map_map]
      rfl

theorem nextFrame_lines {lines : List Text} (present : lines ≠ [])
    (filled : ∀ text ∈ lines, text ≠ []) (plain : ∀ text ∈ lines, '\n' ∉ text) (rest : Text) :
    nextFrame (endLines lines ++ '\n' :: rest) = some (endLines lines ++ ['\n'], rest) := by
  induction lines with
  | nil => exact absurd rfl present
  | cons text others induction =>
      obtain ⟨first, later⟩ := List.forall_mem_cons.mp plain
      have shape : ∀ tail, endLines (text :: others) ++ tail =
          text ++ '\n' :: (endLines others ++ tail) := by
        intro tail
        simp [endLines]
      rw [shape, nextFrame_line first, shape]
      cases others with
      | nil => rfl
      | cons next more =>
          have onward := induction (by simp) (List.forall_mem_cons.mp filled).2 later
          obtain ⟨head, tail, rfl⟩ := List.exists_cons_of_ne_nil (filled next (by simp))
          have ordinary : head ≠ '\n' := fun same => later _ List.mem_cons_self (same ▸ List.mem_cons_self)
          have started : ∀ end_, endLines ((head :: tail) :: more) ++ end_ =
              head :: (tail ++ '\n' :: (endLines more ++ end_)) := by
            intro end_
            simp [endLines]
          rw [started] at onward ⊢
          rw [nextFrame_feed ordinary, onward]
          simp [endLines]

variable {items : List (Item δ)}

theorem framesOf_wire (named : ∀ item ∈ items, item.Named) :
    framesOf (wire json items) = (items.map (write json), []) := by
  induction items with
  | nil => rfl
  | cons item rest induction =>
      obtain ⟨first, later⟩ := List.forall_mem_cons.mp named
      have cut := nextFrame_lines (linesOf_ne_nil json item) (linesOf_filled json)
        (linesOf_named json first) (wire json rest)
      have joined : wire json (item :: rest) = endLines (linesOf json item) ++ '\n' :: wire json rest := by
        rw [wire, List.flatMap_cons, write_eq_lines, List.append_assoc]
        rfl
      rw [joined, framesOf_of_nextFrame cut, induction later, List.map_cons, write_eq_lines]

/-! ## Reading back -/

theorem fieldOf_pair {field : Text} (plain : ':' ∉ field) (value : Text) :
    fieldOf (field ++ ':' :: ' ' :: value) = (field, value) := by
  have split : (field ++ ':' :: ' ' :: value).span (· != ':') = (field, ':' :: ' ' :: value) := by
    have apart : ∀ char ∈ field, (char != ':') = true := by
      intro char member
      exact bne_iff_ne.mpr fun same => plain (same ▸ member)
    rw [List.span_eq_takeWhile_dropWhile, List.takeWhile_append_of_pos apart,
      List.dropWhile_append_of_pos apart]
    simp
  rw [fieldOf, split]
  rfl

theorem readLine_id (message : SseMessage) (value : Text) :
    message.readLine ("id: ".toList ++ value) = { message with id := some value } := by
  have pair : "id: ".toList ++ value = "id".toList ++ ':' :: ' ' :: value := rfl
  rw [pair, SseMessage.readLine, if_neg (by simp), fieldOf_pair (by decide)]
  simp

theorem readLine_event (message : SseMessage) (value : Text) :
    message.readLine ("event: ".toList ++ value) = { message with event := value } := by
  have pair : "event: ".toList ++ value = "event".toList ++ ':' :: ' ' :: value := rfl
  rw [pair, SseMessage.readLine, if_neg (by simp), fieldOf_pair (by decide)]
  simp

theorem readLine_data (message : SseMessage) (value : Text) :
    message.readLine ("data: ".toList ++ value) =
      { message with data := message.data ++ [value] } := by
  have pair : "data: ".toList ++ value = "data".toList ++ ':' :: ' ' :: value := rfl
  rw [pair, SseMessage.readLine, if_neg (by simp), fieldOf_pair (by decide)]
  simp

def frameOf : Item δ → SseFrame δ
  | .event ev => .event ev.event (.parsed ev.data) ev.id
  | .heartbeat => .comment "hb".toList

theorem splitOn_blockOf (named : item.Named) :
    (blockOf (write json item)).splitOn '\n' = linesOf json item := by
  have ends : ∀ lines : List Text, lines ≠ [] →
      endLines lines ++ ['\n'] = ['\n'].intercalate lines ++ ['\n', '\n'] := by
    intro lines present
    induction lines with
    | nil => exact absurd rfl present
    | cons text others induction =>
        cases others with
        | nil => simp [endLines]
        | cons next more =>
            have onward := induction (by simp)
            rw [List.intercalate_cons_cons]
            simpa [endLines] using onward
  have block : blockOf (write json item) = ['\n'].intercalate (linesOf json item) := by
    rw [blockOf, write_eq_lines, ends _ (linesOf_ne_nil json item), List.length_append]
    simp
  rw [block]
  exact List.splitOn_intercalate '\n' (linesOf_named json named) (linesOf_ne_nil json item)

theorem readBlock_write (named : item.Named) :
    readBlock json (blockOf (write json item)) = some (frameOf item) := by
  have lines := splitOn_blockOf json named
  cases item with
  | heartbeat => rfl
  | event ev =>
      have read : parseBlock (blockOf (write json (.event ev))) =
          some ⟨ev.event, ev.id, [json.stringify ev.data]⟩ := by
        rw [parseBlock, lines]
        cases identified : ev.id with
        | none =>
            simp only [linesOf, identified, List.nil_append, List.foldl_cons, List.foldl_nil,
              readLine_event, readLine_data]
            rfl
        | some id =>
            simp only [linesOf, identified, List.cons_append, List.nil_append, List.foldl_cons,
              List.foldl_nil, readLine_id, readLine_event, readLine_data]
            rfl
      rw [readBlock, read]
      simp [parseData, json.parse_stringify, frameOf]

theorem pullAll_eq (chunks : List Text) : pullAll json chunks = pullSse json chunks.flatten := by
  have onward : ∀ (text : Text) (state : List (SseFrame δ) × Text), state = pullSse json text →
      chunks.foldl (pullNext json) state = pullSse json (text ++ chunks.flatten) := by
    intro text state same
    induction chunks generalizing text state with
    | nil => simp [same]
    | cons chunk later induction =>
        rw [List.foldl_cons, List.flatten_cons, ← List.append_assoc]
        apply induction
        rw [same, pullNext]
        simp only [pullSse, framesOf_append text chunk, List.filterMap_append]
  exact onward [] ([], []) rfl

theorem pullAll_wire (named : ∀ item ∈ items, item.Named)
    {chunks : List Text} (written : chunks.flatten = wire json items) :
    pullAll json chunks = (items.map frameOf, []) := by
  have read : (items.map (write json)).filterMap (fun frame => readBlock json (blockOf frame)) =
      items.map frameOf := by
    rw [List.filterMap_map, ← List.filterMap_eq_map]
    apply List.filterMap_congr
    intro item member
    exact readBlock_write json (named item member)
  rw [pullAll_eq, written, pullSse, framesOf_wire json named, read]

/-! ## What the relay makes of the frames -/

/-- The relay reads no more lines in the item than were written. -/
def Item.OneLine : Item δ → Prop
  | .event ev =>
      (∀ char ∈ ev.event, isLineTerminator char = false) ∧
        (∀ id ∈ ev.id, ∀ char ∈ id, isLineTerminator char = false) ∧
        ∀ char ∈ json.stringify ev.data, char ≠ '\u2028' ∧ char ≠ '\u2029'
  | .heartbeat => True

def keep (kept : List (SseEvent δ)) : Item δ → List (SseEvent δ)
  | .event ev => if ev.event = "snapshot".toList then [ev] else kept ++ [ev]
  | .heartbeat => kept

def sinceSnapshot (items : List (Item δ)) : List (SseEvent δ) := items.foldl keep []

/-- At no moment are there more of them than the relay keeps. -/
def WithinReplay (items : List (Item δ)) : Prop :=
  ∀ front, front <+: items → (sinceSnapshot front).length ≤ replayMax

theorem Item.OneLine.named (single : item.OneLine json) : item.Named := by
  cases item with
  | heartbeat => trivial
  | event ev =>
      obtain ⟨event, id, -⟩ := single
      have absent : ∀ text : Text, (∀ char ∈ text, isLineTerminator char = false) → '\n' ∉ text := by
        intro text plain member
        exact absurd (plain '\n' member) (by decide)
      exact ⟨absent ev.event event, fun own identified => absent own (id own identified)⟩

theorem linesOf_single (single : item.OneLine json) :
    ∀ text ∈ linesOf json item, ∀ char ∈ text, isLineTerminator char = false := by
  have plain : ∀ text ∈ linesOf json item, ∀ char ∈ text, ¬ isLineTerminator char = true := by
    apply linesOf_plain json (by simp [isLineTerminator])
    rintro ev rfl
    obtain ⟨event, id, separated⟩ := single
    refine ⟨fun char found => by simp [event char found],
      fun own identified char found => by simp [id own identified char found], ?_⟩
    intro char member ends
    have visible := json.printable ev.data char member
    obtain ⟨line, paragraph⟩ := separated char member
    simp only [isLineTerminator, Bool.or_eq_true, beq_iff_eq] at ends
    rcases ends with ((rfl | rfl) | same) | same
    · exact absurd visible (by decide)
    · exact absurd visible (by decide)
    · exact line same
    · exact paragraph same
  intro text member char found
  exact Bool.eq_false_iff.mpr (plain text member char found)

theorem splitOnP_lines {ends : Char → Bool} (marks : ends '\n' = true) {lines : List Text}
    (plain : ∀ text ∈ lines, ∀ char ∈ text, ends char = false) (rest : Text) :
    (endLines lines ++ rest).splitOnP ends = lines ++ rest.splitOnP ends := by
  induction lines with
  | nil => rfl
  | cons text others induction =>
      obtain ⟨first, later⟩ := List.forall_mem_cons.mp plain
      have shape : endLines (text :: others) ++ rest = text ++ '\n' :: (endLines others ++ rest) := by
        simp [endLines]
      rw [shape, List.splitOnP_append_cons_of_forall_mem first '\n' marks, induction later,
        List.cons_append]

theorem testsSnapshot_event {ev : SseEvent δ} (single : (Item.event ev).OneLine json) :
    testsSnapshot (write json (.event ev)) = decide (ev.event = "snapshot".toList) := by
  have lines : (write json (.event ev)).splitOnP isLineTerminator =
      linesOf json (.event ev) ++ [[], []] := by
    rw [write_eq_lines, splitOnP_lines rfl (linesOf_single json single)]
    rfl
  have same : "event: snapshot".toList = "event: ".toList ++ "snapshot".toList := rfl
  rw [testsSnapshot, lines, Bool.eq_iff_iff, List.any_eq_true, decide_eq_true_iff]
  constructor
  · rintro ⟨text, member, found⟩
    rw [beq_iff_eq.mp found] at member
    rcases List.mem_append.mp member with member | member
    · rcases mem_linesOf json member with comment | ⟨other, itself, ⟨id, -, identity⟩ | event | datum⟩
      · simp at comment
      · simp at identity
      · cases itself
        rw [same] at event
        exact (List.append_cancel_left event).symm
      · simp at datum
    · simp at member
  · intro snapshot
    exact ⟨"event: snapshot".toList, by simp [linesOf, snapshot], beq_self_eq_true _⟩

theorem isHeartbeat_event {ev : SseEvent δ} (named : (Item.event ev).Named) :
    isHeartbeat (write json (.event ev)) = false := by
  have lines : (write json (.event ev)).splitOn '\n' = linesOf json (.event ev) ++ [[], []] := by
    rw [write_eq_lines, List.splitOn_eq_splitOnP, splitOnP_lines rfl]
    · rfl
    · intro text member char found
      apply beq_false_of_ne
      rintro rfl
      exact linesOf_named json named text member found
  rw [isHeartbeat, lines, List.all_append]
  simp [linesOf]

theorem foldl_record (single : ∀ item ∈ items, item.OneLine json)
    (kept : List (SseEvent δ)) :
    (items.map (write json)).foldl record (kept.map (writeSse json)) =
      (items.foldl keep kept).map (writeSse json) := by
  induction items generalizing kept with
  | nil => rfl
  | cons item rest induction =>
      obtain ⟨first, later⟩ := List.forall_mem_cons.mp single
      have step : record (kept.map (writeSse json)) (write json item) =
          (keep kept item).map (writeSse json) := by
        cases item with
        | heartbeat => rfl
        | event ev =>
            rw [record, isHeartbeat_event json first.named, testsSnapshot_event json first, keep,
              if_neg Bool.false_ne_true]
            by_cases snapshot : ev.event = "snapshot".toList
            · rw [if_pos snapshot, if_pos (decide_eq_true snapshot)]
              rfl
            · rw [if_neg snapshot, if_neg (mt of_decide_eq_true snapshot), List.map_append]
              rfl
      rw [List.map_cons, List.foldl_cons, List.foldl_cons, step, induction later]

/-! ## Chunks on the way through the relay -/

/-- What the relay does with a chunk of the upstream `up`. -/
def hear (up : Nat) (stream : SharedStream) (chunk : Text) : SharedStream :=
  if stream.current up then stream.feed chunk else stream

/-- The stream after some text with these frames, all passed on. -/
def passed (stream : SharedStream) (text : Text) (frames : List Text) (rest : Text) : SharedStream :=
  { stream.withViewers stream.subs fun viewer =>
      { viewer with written := viewer.written ++ frames } with
    text := stream.text ++ text
    buf := rest
    replay := frames.foldl record stream.replay
    delivered := stream.delivered ++ frames
    connection := stream.connection ++ frames }

/-- Nowhere among the frames is there more to replay than is kept. -/
def Fits (replay frames : List Text) : Prop :=
  ∀ front, front <+: frames → (front.foldl record replay).length ≤ replayMax

theorem passed_nil (stream : SharedStream) : passed stream [] [] stream.buf = stream := by
  have viewers : (passed stream [] [] stream.buf).viewers = stream.viewers := by
    funext id
    simp [passed, SharedStream.withViewers]
  rw [passed] at viewers ⊢
  simp only [SharedStream.withViewers, List.append_nil] at viewers ⊢
  rw [viewers]
  rfl

theorem passed_passed (stream : SharedStream) (text later : Text) (frames more : List Text)
    (left rest : Text) :
    passed (passed stream text frames left) later more rest =
      passed stream (text ++ later) (frames ++ more) rest := by
  simp only [passed, SharedStream.withViewers, SharedStream.mk.injEq, List.foldl_append,
    List.append_assoc, true_and, and_true]
  funext id
  by_cases member : id ∈ stream.subs
  · simp [member, Function.comp_def]
  · simp [member]

theorem fits_cons {replay frames : List Text} {frame : Text} (short : replay.length ≤ replayMax) :
    Fits replay (frame :: frames) ↔ Fits (record replay frame) frames := by
  constructor
  · intro fits front started
    exact fits (frame :: front) (List.prefix_cons_iff.mpr (.inr ⟨front, rfl, started⟩))
  · intro fits front started
    rcases List.prefix_cons_iff.mp started with rfl | ⟨inner, rfl, shorter⟩
    · exact short
    · exact fits inner shorter

theorem drain_step {fuel : Nat} {stream : SharedStream} {frame rest : Text}
    (found : nextFrame stream.buf = some (frame, rest)) (short : stream.replay.length ≤ replayMax) :
    SharedStream.drain (fuel + 1) stream =
      if (record stream.replay frame).length ≤ replayMax then
        SharedStream.drain fuel (passed stream [] [frame] rest)
      else ({ stream with buf := rest }.deliver frame).connect := by
  rw [SharedStream.drain, found, record]
  have one : ([frame] : List Text).length ≤ replayMax := by simp [replayMax]
  by_cases quiet : isHeartbeat frame = true
  · simp only [if_pos quiet, if_pos short]
    congr 1
    simp [passed, SharedStream.deliver, SharedStream.withViewers, Viewer.write, record, quiet]
  · by_cases snapshot : testsSnapshot frame = true
    · simp only [if_neg quiet, if_pos snapshot, if_pos one]
      congr 1
      simp [passed, SharedStream.deliver, SharedStream.withViewers, Viewer.write, record, quiet,
        snapshot]
    · simp only [if_neg quiet, if_neg snapshot, List.length_append, List.length_singleton]
      by_cases more : stream.replay.length + 1 > replayMax
      · rw [if_pos more, if_neg (Nat.not_le.mpr more)]
      · rw [if_neg more, if_pos (Nat.not_lt.mp more)]
        congr 1
        simp [passed, SharedStream.deliver, SharedStream.withViewers, Viewer.write, record, quiet,
          snapshot]

theorem drain_cases {fuel : Nat} {stream : SharedStream} (enough : stream.buf.length ≤ fuel)
    (short : stream.replay.length ≤ replayMax) :
    (Fits stream.replay (framesOf stream.buf).1 ∧
      SharedStream.drain fuel stream =
        passed stream [] (framesOf stream.buf).1 (framesOf stream.buf).2) ∨
    ¬ Fits stream.replay (framesOf stream.buf).1 ∧
      ∃ other : SharedStream, SharedStream.drain fuel stream = other.connect ∧
        other.up = stream.up := by
  induction fuel generalizing stream with
  | zero =>
      have empty : stream.buf = [] := List.length_eq_zero_iff.mp (Nat.le_zero.mp enough)
      refine .inl ⟨?_, ?_⟩
      · intro front started
        rw [empty, framesOf, List.prefix_nil] at started
        rw [started]
        exact short
      · have none : framesOf stream.buf = ([], stream.buf) := by rw [empty]; rfl
        rw [none, passed_nil, SharedStream.drain]
  | succ fuel induction =>
      cases found : nextFrame stream.buf with
      | none =>
          refine .inl ⟨?_, ?_⟩
          · intro front started
            rw [framesOf_of_no_frame found, List.prefix_nil] at started
            rw [started]
            exact short
          · rw [framesOf_of_no_frame found, passed_nil, SharedStream.drain, found]
      | some pair =>
          obtain ⟨frame, rest⟩ := pair
          obtain ⟨whole, nonempty⟩ := nextFrame_split found
          have positive := List.length_pos_of_ne_nil nonempty
          have shorter : rest.length ≤ fuel := by
            rw [whole, List.length_append] at enough
            omega
          rw [framesOf_of_nextFrame found, drain_step found short, fits_cons short]
          by_cases fits : (record stream.replay frame).length ≤ replayMax
          · rw [if_pos fits]
            have later := @induction (passed stream [] [frame] rest) shorter fits
            have joined := passed_passed stream [] [] [frame] (framesOf rest).1 rest (framesOf rest).2
            rcases later with ⟨inside, run⟩ | ⟨beyond, other, run, same⟩
            · exact .inl ⟨inside, run.trans joined⟩
            · exact .inr ⟨beyond, other, run, same⟩
          · rw [if_neg fits]
            refine .inr ⟨fun inside => fits (inside [] List.nil_prefix), _, rfl, rfl⟩

theorem fits_append {replay frames more : List Text} (before : Fits replay frames) :
    Fits replay (frames ++ more) ↔ Fits (frames.foldl record replay) more := by
  induction frames generalizing replay with
  | nil => rfl
  | cons frame later induction =>
      have short : replay.length ≤ replayMax := before [] List.nil_prefix
      rw [fits_cons short] at before
      rw [List.cons_append, fits_cons short, induction before, List.foldl_cons]

theorem framesOf_left (text : Text) : framesOf (framesOf text).2 = ([], (framesOf text).2) := by
  have again := framesOf_append text []
  rw [List.append_nil, List.append_nil] at again
  have frames := congrArg Prod.fst again
  have left := congrArg Prod.snd again
  exact Prod.ext (List.self_eq_append_right.mp frames) left.symm

variable {up : Nat}

theorem foldl_hear_replaced (chunks : List Text) {stream : SharedStream}
    (replaced : stream.current up = false) : chunks.foldl (hear up) stream = stream := by
  induction chunks with
  | nil => rfl
  | cons chunk later induction =>
      have still : hear up stream chunk = stream := by simp [hear, replaced]
      rw [List.foldl_cons, still, induction]

theorem hear_cases {stream : SharedStream} (current : stream.current up = true)
    (short : stream.replay.length ≤ replayMax) (chunk : Text) :
    (Fits stream.replay (framesOf (stream.buf ++ chunk)).1 ∧
      hear up stream chunk = passed stream chunk (framesOf (stream.buf ++ chunk)).1
        (framesOf (stream.buf ++ chunk)).2) ∨
    ¬ Fits stream.replay (framesOf (stream.buf ++ chunk)).1 ∧
      (hear up stream chunk).up = up + 1 ∧ (hear up stream chunk).replay = [] := by
  have here : stream.up = up := by
    rw [SharedStream.current, Bool.and_eq_true, beq_iff_eq] at current
    exact current.1
  rw [hear, if_pos current, SharedStream.feed]
  rcases @drain_cases (stream.buf.length + chunk.length)
      { stream with buf := stream.buf ++ chunk, text := stream.text ++ chunk }
      (le_of_eq List.length_append) short with ⟨inside, run⟩ | ⟨beyond, other, run, same⟩
  · refine .inl ⟨inside, run.trans ?_⟩
    simp [passed, SharedStream.withViewers]
  · exact .inr ⟨beyond, by rw [run, SharedStream.connect, same, here], by rw [run]; rfl⟩

theorem foldl_hear (chunks : List Text) {stream : SharedStream}
    (current : stream.current up = true) (unfinished : framesOf stream.buf = ([], stream.buf))
    (short : stream.replay.length ≤ replayMax) :
    (Fits stream.replay (framesOf (stream.buf ++ chunks.flatten)).1 ∧
      chunks.foldl (hear up) stream =
        passed stream chunks.flatten (framesOf (stream.buf ++ chunks.flatten)).1
          (framesOf (stream.buf ++ chunks.flatten)).2) ∨
    ¬ Fits stream.replay (framesOf (stream.buf ++ chunks.flatten)).1 ∧
      (chunks.foldl (hear up) stream).up = up + 1 ∧
      (chunks.foldl (hear up) stream).replay = [] := by
  induction chunks generalizing stream with
  | nil =>
      refine .inl ⟨?_, ?_⟩
      · intro front started
        rw [List.flatten_nil, List.append_nil, unfinished, List.prefix_nil] at started
        rw [started]
        exact short
      · simp [unfinished, passed_nil]
  | cons chunk later induction =>
      rw [List.foldl_cons, List.flatten_cons, ← List.append_assoc,
        framesOf_append (stream.buf ++ chunk)]
      rcases hear_cases current short chunk with ⟨inside, run⟩ | ⟨beyond, replaced, empty⟩
      · rw [fits_append inside, run]
        have onward := @induction
          (passed stream chunk (framesOf (stream.buf ++ chunk)).1 (framesOf (stream.buf ++ chunk)).2)
          current (framesOf_left _) (inside _ (List.prefix_refl _))
        rcases onward with ⟨further, rest⟩ | ⟨further, rest⟩
        · exact .inl ⟨further, rest.trans (passed_passed _ _ _ _ _ _ _)⟩
        · exact .inr ⟨further, rest⟩
      · have gone : (hear up stream chunk).current up = false := by
          rw [SharedStream.current, replaced, Bool.and_eq_false_iff, beq_eq_false_iff_ne]
          exact .inl (Nat.succ_ne_self up)
        rw [foldl_hear_replaced later gone]
        refine .inr ⟨?_, replaced, empty⟩
        intro fits
        apply beyond
        intro front started
        exact fits front (started.trans (List.prefix_append _ _))

theorem fits_map (single : ∀ item ∈ items, item.OneLine json) :
    Fits [] (items.map (write json)) ↔ WithinReplay items := by
  have lengths : ∀ front, front <+: items →
      ((front.map (write json)).foldl record []).length = (sinceSnapshot front).length := by
    intro front started
    have kept := foldl_record json (fun item member => single item (started.subset member)) []
    rw [List.map_nil] at kept
    rw [kept, List.length_map, sinceSnapshot]
  constructor
  · intro fits front started
    rw [← lengths front started]
    exact fits _ (started.map _)
  · intro within front started
    obtain ⟨own, same, rfl⟩ := List.prefix_map_iff.mp started
    rw [lengths own same]
    exact within own same

/-- Every cutting of what was written is read as the events that were written.  The relay
passes the text on and keeps the events from the newest snapshot on, until these are more
than it keeps: then it opens a new upstream and starts with nothing. -/
theorem frames_survive (items : List (Item δ)) (chunks : List Text)
    (written : chunks.flatten = wire json items) :
    ((∀ item ∈ items, item.Named) → pullAll json chunks = (items.map frameOf, [])) ∧
      ((∀ item ∈ items, item.OneLine json) → ∀ (up : Nat) (stream : SharedStream),
        stream.current up = true → stream.buf = [] → stream.replay = [] →
        (WithinReplay items →
          (chunks.foldl (hear up) stream).current up = true ∧
            (chunks.foldl (hear up) stream).buf = [] ∧
            (chunks.foldl (hear up) stream).replay = (sinceSnapshot items).map (writeSse json) ∧
            ∀ id ∈ stream.subs, ∀ viewer, stream.viewers id = some viewer →
              ∃ after, (chunks.foldl (hear up) stream).viewers id = some after ∧
                after.written.flatten = viewer.written.flatten ++ chunks.flatten) ∧
        (¬ WithinReplay items →
          (chunks.foldl (hear up) stream).up = up + 1 ∧
            (chunks.foldl (hear up) stream).replay = [])) := by
  constructor
  · intro named
    exact pullAll_wire json named written
  · intro single up stream current empty fresh
    have named : ∀ item ∈ items, item.Named := fun item member => (single item member).named
    have frames := framesOf_wire json named
    have run := @foldl_hear up chunks stream current (by rw [empty]; rfl) (by rw [fresh]; exact Nat.zero_le _)
    rw [empty, fresh, List.nil_append, written, frames, fits_map json single] at run
    constructor
    · intro within
      obtain ⟨-, same⟩ := run.resolve_right fun beyond => beyond.1 within
      rw [same]
      refine ⟨current, rfl, ?_, ?_⟩
      · have kept := foldl_record json single []
        rw [List.map_nil] at kept
        rw [passed, fresh]
        exact kept
      · intro id member viewer found
        refine ⟨{ viewer with written := viewer.written ++ items.map (write json) }, ?_, ?_⟩
        · simp [passed, SharedStream.withViewers, member, found]
        · rw [List.flatten_append, written, wire, List.flatMap_def]
    · intro beyond
      exact (run.resolve_left fun inside => beyond inside.1).2

/-! ## A stream of two events -/

def booleans : Json Bool where
  stringify data := if data then "true".toList else "false".toList
  parse text :=
    if text = "true".toList then some true
    else if text = "false".toList then some false
    else none
  parse_stringify := by decide
  printable := by rintro (_ | _) <;> simp

def health : SseEvent Bool := ⟨"health".toList, true, some "1".toList⟩

def snapshot : SseEvent Bool := ⟨"snapshot".toList, false, none⟩

def shown : List (Item Bool) := [.event health, .heartbeat, .event snapshot]

/-- The cut goes through the blank line behind the first event. -/
def halves : List Text := [(wire booleans shown).take 31, (wire booleans shown).drop 31]

theorem shown_oneLine : ∀ item ∈ shown, item.OneLine booleans := by
  intro item member
  simp only [shown, List.mem_cons, List.not_mem_nil, or_false] at member
  rcases member with rfl | rfl | rfl
  · simp [Item.OneLine, health, booleans, isLineTerminator]
  · trivial
  · refine ⟨?_, by rintro id ⟨⟩, ?_⟩
    · change ∀ char ∈ "snapshot".toList, _
      simp [isLineTerminator]
    · change ∀ char ∈ "false".toList, _
      simp

theorem length_foldl_keep (items : List (Item δ)) (kept : List (SseEvent δ)) :
    (items.foldl keep kept).length ≤ kept.length + items.length := by
  induction items generalizing kept with
  | nil => exact Nat.le_refl _
  | cons item rest induction =>
      have step : (keep kept item).length ≤ kept.length + 1 := by
        cases item with
        | event ev =>
            rw [keep]
            split <;> simp
        | heartbeat => exact Nat.le_succ _
      have later := induction (keep kept item)
      simp only [List.foldl_cons, List.length_cons] at later ⊢
      omega

theorem frames_survive_halves :
    pullAll booleans halves = (shown.map frameOf, []) ∧
      (halves.foldl (hear 0) {}).buf = [] ∧
      (halves.foldl (hear 0) {}).replay = [writeSse booleans snapshot] := by
  have both := frames_survive booleans shown halves (by decide)
  have named : ∀ item ∈ shown, item.Named := fun item member => (shown_oneLine item member).named
  have within : WithinReplay shown := by
    intro front started
    have fewer := started.length_le
    have few := length_foldl_keep front []
    simp only [shown, List.length_cons, List.length_nil] at fewer few
    rw [sinceSnapshot, replayMax]
    omega
  obtain ⟨-, buf, replay, -⟩ := (both.2 shown_oneLine 0 {} rfl rfl rfl).1 within
  exact ⟨both.1 named, buf, replay⟩

/-- A snapshot takes the place of the frames before it. -/
theorem not_every_frame_kept :
    ∃ (items : List (Item Bool)) (chunks : List Text),
      (∀ item ∈ items, item.OneLine booleans) ∧ chunks.flatten = wire booleans items ∧
        (chunks.foldl (hear 0) {}).replay ≠
          (items.map (write booleans)).filter fun frame => !isHeartbeat frame := by
  refine ⟨shown, halves, shown_oneLine, by decide, ?_⟩
  decide +kernel

end EventFrames

end Barycenter
