import Barycenter.Api.EventHub

/-!
# What a viewer of the event stream knows

A publication reaches the streams that are subscribed.  A stream that is still
being opened learns of it only through its snapshot, so nothing is lost as long
as every part that such a stream has already read contains the change that is
published.
-/

namespace Barycenter.Api

variable {Part Change : Type}

/-! ## The viewer -/

/-- A snapshot replaces what the viewer knows, any other event adds to it. -/
def view : List (Part × Change) → SseEvent Part Change → List (Part × Change)
  | _, { data := .snapshot content, .. } =>
      content.flatMap fun (part, changes) => changes.map fun change => (part, change)
  | known, { data := .change part change, .. } => known ++ [(part, change)]

def viewed (received : List (SseEvent Part Change)) : List (Part × Change) :=
  received.foldl view []

def Reflected (content : List (Part × List Change)) (event : SseEvent Part Change) : Prop :=
  ∃ part change changes,
    event.data = .change part change ∧ (part, changes) ∈ content ∧ change ∈ changes

/-- The viewer has received a snapshot, and every published event is reflected in
it or was delivered after it, in the order of publication. -/
def Complete (received published : List (SseEvent Part Change)) : Prop :=
  ∃ content later,
    received = { event := "snapshot", data := .snapshot content } :: later ∧
    later.Sublist published ∧
    ∀ event ∈ published, Reflected content event ∨ event ∈ later

/-- What the events announce, in terms of the viewer's state. -/
def Announced (published : List (SseEvent Part Change)) (part : Part) (change : Change) : Prop :=
  ∃ event ∈ published, event.data = .change part change

/-- The viewer of every stream that is not closed, once it has a snapshot, knows
all that was published. -/
def NothingLost (world : HubWorld Part Change) : Prop :=
  ∀ id stream, world.streams id = some stream → stream.closed = false →
    stream.response.events ≠ [] →
      Complete stream.response.events world.published ∧
      ∀ part change, Announced world.published part change →
        (part, change) ∈ viewed stream.response.events

theorem mem_view_of_mem {known : List (Part × Change)} {pair : Part × Change}
    {later : List (SseEvent Part Change)}
    (changes : ∀ event ∈ later, ∃ part change, event.data = .change part change)
    (member : pair ∈ known) : pair ∈ later.foldl view known := by
  induction later generalizing known with
  | nil => exact member
  | cons event rest induction =>
      apply induction fun event member => changes event (List.mem_cons_of_mem _ member)
      obtain ⟨part, change, announces⟩ := changes event List.mem_cons_self
      rcases event with ⟨name, data, id⟩
      cases announces
      exact List.mem_append_left _ member

variable {part : Part} {change : Change}

theorem mem_view_of_delivered {known : List (Part × Change)} {later : List (SseEvent Part Change)}
    {event : SseEvent Part Change}
    (changes : ∀ event ∈ later, ∃ part change, event.data = .change part change)
    (delivered : event ∈ later) (announces : event.data = .change part change) :
    (part, change) ∈ later.foldl view known := by
  induction later generalizing known with
  | nil => cases delivered
  | cons first rest induction =>
      have restChanges := fun event member => changes event (List.mem_cons_of_mem first member)
      simp only [List.foldl_cons]
      rcases List.mem_cons.mp delivered with rfl | member
      · apply mem_view_of_mem restChanges
        rcases event with ⟨name, data, id⟩
        cases announces
        exact List.mem_append_right _ List.mem_cons_self
      · exact induction restChanges member

theorem viewed_of_complete {received published : List (SseEvent Part Change)}
    (changes : ∀ event ∈ published, ∃ part change, event.data = .change part change)
    (complete : Complete received published) (announced : Announced published part change) :
    (part, change) ∈ viewed received := by
  obtain ⟨content, later, rfl, ordered, kept⟩ := complete
  obtain ⟨event, member, announces⟩ := announced
  have laterChanges := fun event member => changes event (ordered.subset member)
  rcases kept event member with reflected | delivered
  · obtain ⟨part', change', taken, announces', read, contains⟩ := reflected
    rw [announces] at announces'
    cases announces'
    apply mem_view_of_mem laterChanges
    exact List.mem_flatMap.mpr ⟨(part, taken), read, List.mem_map.mpr ⟨change, contains, rfl⟩⟩
  · have known : (part, change) ∈
        later.foldl view (view [] { event := "snapshot", data := .snapshot content }) :=
      mem_view_of_delivered laterChanges delivered announces
    exact known

/-! ## One stream -/

/-- The parts that were read contain what was published of them. -/
def Covers (content : List (Part × List Change)) (published : List (SseEvent Part Change)) :
    Prop :=
  ∀ event ∈ published, ∀ part change, event.data = .change part change →
    ∀ changes, (part, changes) ∈ content → change ∈ changes

def EventStream.Listening (stream : EventStream Part Change) : Prop :=
  stream.phase = .subscribed ∧ stream.closed = false

def EventStream.Sound (published : List (SseEvent Part Change))
    (stream : EventStream Part Change) : Prop :=
  stream.closed = false →
    match stream.phase with
    | .reading content => stream.response.events = [] ∧ Covers content published
    | .left => stream.response.events = []
    | .subscribed =>
        stream.response.events = [] ∧ stream.response.gone = true ∨
          Complete stream.response.events published

namespace EventStream

variable {published : List (SseEvent Part Change)} {stream : EventStream Part Change}

theorem sound_of_closed (closed : stream.closed = true) : stream.Sound published := by
  intro stillOpen
  simp [closed] at stillOpen

theorem sound_finish (graceful : Bool) : (stream.finish graceful).Sound published :=
  sound_of_closed (finish_closed graceful stream)

/-- What a viewer received is all that counts, as long as a destroyed response
stays destroyed. -/
theorem sound_response {response : ServerResponse Part Change} (sound : stream.Sound published)
    (same : response.events = stream.response.events)
    (gone : stream.response.gone = true → response.gone = true) :
    ({ stream with response := response } : EventStream Part Change).Sound published := by
  intro stillOpen
  have before := sound stillOpen
  rcases stream with ⟨phase, closed, old⟩
  cases phase with
  | reading content => exact ⟨same.trans before.1, before.2⟩
  | left => exact same.trans before
  | subscribed =>
      rw [same]
      exact before.imp_left fun dead => ⟨dead.1, gone dead.2⟩

theorem sound_beat (sound : stream.Sound published) : stream.beat.Sound published :=
  sound_response sound (by simp) (by simp)

theorem sound_tick (asks : Bool) (sound : stream.Sound published) :
    (stream.tick asks).Sound published := by
  unfold tick
  split
  · exact sound_finish false
  · split
    · exact sound
    · exact sound_beat sound

theorem sound_answered (alive : Bool) (sound : stream.Sound published) :
    (stream.answered alive).Sound published := by
  unfold answered
  split
  · exact sound_beat sound
  · exact sound_finish true

theorem complete_append {received : List (SseEvent Part Change)} {framed : SseEvent Part Change}
    (complete : Complete received published) :
    Complete (received ++ [framed]) (published ++ [framed]) := by
  obtain ⟨content, later, rfl, ordered, kept⟩ := complete
  refine ⟨content, later ++ [framed], rfl, ordered.append (List.Sublist.refl _), ?_⟩
  intro event member
  rcases List.mem_append.mp member with old | new
  · exact (kept event old).imp_right (List.mem_append_left _)
  · exact .inr (List.mem_append_right _ new)

theorem sound_receive {encodes : Bool} {framed : SseEvent Part Change}
    (listening : stream.Listening) (sound : stream.Sound published) :
    (stream.receive encodes framed).Sound (published ++ [framed]) := by
  intro stays
  obtain ⟨stillOpen, taken⟩ := events_receive stays
  have before := sound stillOpen
  simp only [receive_phase, listening.1] at before ⊢
  rcases before with ⟨-, dead⟩ | complete
  · have refused : stream.response.writable = false := by
      cases writable : stream.response.writable with
      | false => rfl
      | true =>
          rw [ServerResponse.not_gone_of_writable writable] at dead
          cases dead
    simp [receive, refused] at stays
  · right
    rw [taken]
    exact complete_append complete

/-- A publication does not concern the streams that do not listen, provided the
parts that are being read contain its change. -/
theorem sound_of_covered {event : String} {id : Option String} (deaf : ¬ stream.Listening)
    (sound : stream.Sound published)
    (covered : stream.closed = false → ∀ content, stream.phase = .reading content →
      ∀ changes, (part, changes) ∈ content → change ∈ changes) :
    stream.Sound (published ++ [⟨event, .change part change, id⟩]) := by
  intro stillOpen
  have before := sound stillOpen
  cases phase : stream.phase with
  | subscribed => exact absurd ⟨phase, stillOpen⟩ deaf
  | left => simpa [phase] using before
  | reading content =>
      simp only [phase] at before ⊢
      refine ⟨before.1, ?_⟩
      intro announced member part' change' announces changes read
      rcases List.mem_append.mp member with old | new
      · exact before.2 announced old part' change' announces changes read
      · obtain rfl := List.mem_singleton.mp new
        cases announces
        exact covered stillOpen content phase changes read

/-- A snapshot of all parts contains all that was published, wherever every
publication is about one of the parts. -/
theorem sound_begin {parts : List Part} {encodes : Bool} {content : List (Part × List Change)}
    (reading : stream.phase = .reading content) (sound : stream.Sound published)
    (all : ∀ part ∈ parts, part ∈ content.map Prod.fst)
    (carried : ∀ event ∈ published, ∃ part change,
      event.data = .change part change ∧ part ∈ parts) :
    (stream.begin encodes content).Sound published := by
  unfold begin
  split
  · rename_i leaves
    intro stillOpen
    have before := sound stillOpen
    simp only [reading] at before
    exact before.1
  · intro stillOpen
    have before := sound stillOpen
    simp only [reading] at before
    cases gone : stream.response.gone with
    | true =>
      left
      exact ⟨by simp [ServerResponse.write, gone, before.1], by simp [gone]⟩
    | false =>
      right
      rw [ServerResponse.events_write_event _ _ gone, before.1]
      refine ⟨content, [], rfl, List.nil_sublist _, ?_⟩
      intro event member
      obtain ⟨part, change, announces, about⟩ := carried event member
      obtain ⟨⟨_, changes⟩, read, rfl⟩ := List.mem_map.mp (all part about)
      exact .inl ⟨_, change, changes, announces, read, before.2 event member _ _ announces _ read⟩

end EventStream

/-! ## The hub -/

namespace HubWorld

variable {world : HubWorld Part Change}

/-- The hub calls exactly the streams that listen, and can close every stream
that is not closed. -/
structure Registered (world : HubWorld Part Change) : Prop where
  nodup : world.subs.Nodup
  listening : ∀ id, id ∈ world.subs ↔
    ∃ stream, world.streams id = some stream ∧ stream.Listening
  closable : ∀ id stream, world.streams id = some stream → stream.closed = false →
    id ∈ world.closers

/-- An action neither starts nor ends a subscription, other than by closing, which
is final. -/
def KeepsListening (action : EventStream Part Change → EventStream Part Change)
    (stream : EventStream Part Change) : Prop :=
  ((action stream).Listening ↔ stream.Listening ∧ (action stream).closed = false) ∧
    (stream.closed = true → (action stream).closed = true)

theorem update_streams (id other : Nat)
    (action : EventStream Part Change → EventStream Part Change) :
    (world.update id action).streams other =
      if other = id then (world.streams id).map action else world.streams other := by
  unfold update
  cases found : world.streams id with
  | none =>
      by_cases same : other = id
      · simp [same, found]
      · simp [same]
  | some stream => simp [Function.update_apply]

@[simp] theorem update_published (id : Nat)
    (action : EventStream Part Change → EventStream Part Change) :
    (world.update id action).published = world.published := by
  unfold update
  split <;> rfl

@[simp] theorem update_database (id : Nat)
    (action : EventStream Part Change → EventStream Part Change) :
    (world.update id action).database = world.database := by
  unfold update
  split <;> rfl

theorem mem_update_subs (registered : world.Registered) (id other : Nat)
    (action : EventStream Part Change → EventStream Part Change) :
    other ∈ (world.update id action).subs ↔
      other ∈ world.subs ∧
        ¬ (other = id ∧ ∃ stream, world.streams id = some stream ∧ (action stream).closed = true) := by
  unfold update
  cases found : world.streams id with
  | none => simp
  | some stream =>
      cases closes : (action stream).closed with
      | false => simp [closes]
      | true => simp [closes, registered.nodup.mem_erase_iff, and_comm]

variable {id : Nat} {action : EventStream Part Change → EventStream Part Change}

theorem update_registered (registered : world.Registered)
    (keeps : ∀ stream, world.streams id = some stream → KeepsListening action stream) :
    (world.update id action).Registered := by
  refine ⟨?_, ?_, ?_⟩
  · unfold update
    split
    · exact registered.nodup
    · simp only
      split
      · exact registered.nodup.erase _
      · exact registered.nodup
  · intro other
    rw [mem_update_subs registered, registered.listening, update_streams]
    by_cases same : other = id
    · subst same
      cases found : world.streams other with
      | none => simp
      | some stream =>
          simp only [Option.some.injEq, exists_eq_left', true_and, if_true, Option.map_some,
            Bool.not_eq_true]
          exact (keeps stream found).1.symm
    · simp [same]
  · intro other stream there stillOpen
    rw [update_streams] at there
    split at there
    · rename_i same
      subst same
      obtain ⟨before, found, rfl⟩ := Option.map_eq_some_iff.mp there
      have wasOpen : before.closed = false := by
        cases closed : before.closed with
        | false => rfl
        | true => simp [(keeps before found).2 closed] at stillOpen
      simpa [update, found, stillOpen] using registered.closable other before found wasOpen
    · rename_i different
      have member := registered.closable other stream there stillOpen
      unfold update
      split
      · exact member
      · simp only
        split
        · exact (List.mem_erase_of_ne different).mpr member
        · exact member

variable {ids : List Nat}

theorem updateAll_registered
    (registered : world.Registered) (keeps : ∀ stream, KeepsListening action stream) :
    (updateAll ids action world).Registered := by
  induction ids generalizing world with
  | nil => exact registered
  | cons id rest induction => exact induction (update_registered registered fun stream _ => keeps stream)

theorem updateAll_streams (nodup : ids.Nodup) (other : Nat)
    (action : EventStream Part Change → EventStream Part Change) :
    (updateAll ids action world).streams other =
      if other ∈ ids then (world.streams other).map action else world.streams other := by
  induction ids generalizing world with
  | nil => rfl
  | cons id rest induction =>
      obtain ⟨fresh, restNodup⟩ := List.nodup_cons.mp nodup
      have later := @induction (world.update id action) restNodup
      rw [updateAll, List.foldl_cons]
      rw [updateAll] at later
      rw [later, update_streams]
      by_cases same : other = id
      · subst same
        simp [fresh]
      · simp [same]

@[simp] theorem updateAll_published (ids : List Nat)
    (action : EventStream Part Change → EventStream Part Change) :
    (updateAll ids action world).published = world.published := by
  induction ids generalizing world with
  | nil => rfl
  | cons id rest induction =>
      exact (@induction (world.update id action)).trans (update_published id action)

@[simp] theorem updateAll_database (ids : List Nat)
    (action : EventStream Part Change → EventStream Part Change) :
    (updateAll ids action world).database = world.database := by
  induction ids generalizing world with
  | nil => rfl
  | cons id rest induction =>
      exact (@induction (world.update id action)).trans (update_database id action)

/-- Streams are sound one by one, the hub knows who listens, and everything that
was published is a change that its part of the state has taken. -/
structure Sound (parts : List Part) (world : HubWorld Part Change) : Prop where
  registered : world.Registered
  streams : ∀ id stream, world.streams id = some stream → stream.Sound world.published
  carried : ∀ event ∈ world.published, ∃ part change,
    event.data = .change part change ∧ part ∈ parts ∧ change ∈ world.database part

variable {parts : List Part}

theorem update_sound (sound : world.Sound parts)
    (keeps : ∀ stream, world.streams id = some stream → KeepsListening action stream)
    (sounds : ∀ stream, world.streams id = some stream →
      stream.Sound world.published → (action stream).Sound world.published) :
    (world.update id action).Sound parts := by
  refine ⟨update_registered sound.registered keeps, ?_, ?_⟩
  · intro other stream found
    rw [update_published]
    rw [update_streams] at found
    split at found
    · rename_i same
      obtain ⟨before, there, rfl⟩ := Option.map_eq_some_iff.mp found
      exact sounds before there (sound.streams id before there)
    · exact sound.streams other stream found
  · simpa using sound.carried

theorem updateAll_sound (sound : world.Sound parts) (keeps : ∀ stream, KeepsListening action stream)
    (sounds : ∀ published stream, EventStream.Sound published stream →
      (action stream).Sound published) :
    (updateAll ids action world).Sound parts := by
  induction ids generalizing world with
  | nil => exact sound
  | cons id rest induction =>
      exact induction (update_sound sound (fun stream _ => keeps stream)
        fun stream _ => sounds world.published stream)

theorem keepsListening_finish (graceful : Bool) (stream : EventStream Part Change) :
    KeepsListening (EventStream.finish graceful) stream := by
  simp [KeepsListening, EventStream.Listening]

theorem keepsListening_beat (stream : EventStream Part Change) :
    KeepsListening EventStream.beat stream := by
  simp +contextual [KeepsListening, EventStream.Listening]

theorem keepsListening_tick (asks : Bool) (stream : EventStream Part Change) :
    KeepsListening (EventStream.tick asks) stream := by
  unfold KeepsListening EventStream.tick
  split
  · exact keepsListening_finish false stream
  · split
    · simp +contextual [EventStream.Listening]
    · exact keepsListening_beat stream

theorem keepsListening_answered (alive : Bool) (stream : EventStream Part Change) :
    KeepsListening (EventStream.answered alive) stream := by
  unfold KeepsListening EventStream.answered
  split
  · exact keepsListening_beat stream
  · exact keepsListening_finish true stream

theorem keepsListening_receive (encodes : Bool) (framed : SseEvent Part Change)
    (stream : EventStream Part Change) :
    KeepsListening (EventStream.receive encodes framed) stream := by
  unfold KeepsListening EventStream.receive
  split
  · exact keepsListening_finish false stream
  · split
    · simp +contextual [EventStream.Listening]
    · exact keepsListening_finish false stream

theorem keepsListening_response (change : ServerResponse Part Change → ServerResponse Part Change)
    (stream : EventStream Part Change) :
    KeepsListening (fun stream => { stream with response := change stream.response }) stream := by
  simp +contextual [KeepsListening, EventStream.Listening]

theorem commit_sound [DecidableEq Part] (part : Part) (change : Change)
    (sound : world.Sound parts) :
    ({ world with
      database := Function.update world.database part (world.database part ++ [change]) } :
        HubWorld Part Change).Sound parts := by
  refine ⟨⟨sound.registered.nodup, sound.registered.listening, sound.registered.closable⟩,
    sound.streams, ?_⟩
  intro event member
  obtain ⟨about, taken, announces, carried, held⟩ := sound.carried event member
  refine ⟨about, taken, announces, carried, ?_⟩
  simp only [Function.update_apply]
  split
  · rename_i same
    subst same
    exact List.mem_append_left _ held
  · exact held

def partsRead (world : HubWorld Part Change) (id : Nat) : List (Part × List Change) :=
  match world.streams id with
  | some { phase := .reading content, .. } => content
  | _ => []

/-- No stream that is being opened has read the part without the change. -/
def Prepared (world : HubWorld Part Change) (part : Part) (change : Change) : Prop :=
  ∀ id ∈ world.closers, ∀ read ∈ world.partsRead id, read.1 = part → change ∈ read.2

variable {stream : EventStream Part Change}

theorem partsRead_of_reading
    {content : List (Part × List Change)} (found : world.streams id = some stream)
    (reading : stream.phase = .reading content) : world.partsRead id = content := by
  rcases stream with ⟨phase, closed, response⟩
  cases reading
  simp [partsRead, found]

theorem publish_sound {event : String} {encodes : Bool} (sound : world.Sound parts)
    (about : part ∈ parts) (held : change ∈ world.database part)
    (prepared : world.Prepared part change) :
    (world.publish event part change encodes).Sound parts := by
  have registered : ({ world with
      count := world.count + 1
      published := world.published ++ [world.framed event part change] } :
        HubWorld Part Change).Registered :=
    ⟨sound.registered.nodup, sound.registered.listening, sound.registered.closable⟩
  refine ⟨updateAll_registered registered (keepsListening_receive _ _), ?_, ?_⟩
  · intro id stream found
    rw [publish, updateAll_published]
    rw [publish, updateAll_streams sound.registered.nodup] at found
    split at found
    · rename_i member
      obtain ⟨before, there, rfl⟩ := Option.map_eq_some_iff.mp found
      obtain ⟨listener, same, listening⟩ := (sound.registered.listening id).mp member
      cases there.symm.trans same
      exact EventStream.sound_receive listening (sound.streams id _ there)
    · rename_i absent
      have deaf : ¬ stream.Listening := fun listening =>
        absent ((sound.registered.listening id).mpr ⟨stream, found, listening⟩)
      refine EventStream.sound_of_covered deaf (sound.streams id stream found) ?_
      intro stillOpen content reading changes read
      have member := sound.registered.closable id stream found stillOpen
      rw [← partsRead_of_reading found reading] at read
      exact prepared id member (part, changes) read rfl
  · intro announced member
    rw [publish, updateAll_published] at member
    rw [publish, updateAll_database]
    rcases List.mem_append.mp member with old | new
    · exact sound.carried announced old
    · obtain rfl := List.mem_singleton.mp new
      exact ⟨part, change, rfl, about, held⟩

theorem openEventStream_sound (sound : world.Sound parts)
    (fresh : world.streams id = none) :
    ({ world with
      streams := Function.update world.streams id (some {})
      closers := world.closers ++ [id] } : HubWorld Part Change).Sound parts := by
  refine ⟨⟨sound.registered.nodup, ?_, ?_⟩, ?_, sound.carried⟩
  · intro other
    rw [sound.registered.listening]
    by_cases same : other = id
    · subst same
      simp [fresh, EventStream.Listening]
    · simp [same]
  · intro other stream found stillOpen
    by_cases same : other = id
    · simp [same]
    · have there : world.streams other = some stream := by simpa [same] using found
      exact List.mem_append_left _ (sound.registered.closable other stream there stillOpen)
  · intro other stream found
    by_cases same : other = id
    · subst same
      simp only [Function.update_self, Option.some.injEq] at found
      subst found
      intro _
      exact ⟨rfl, by simp [Covers]⟩
    · exact sound.streams other stream (by simpa [same] using found)

variable [DecidableEq Part]

theorem readPart_sound (carried : ∀ event ∈ world.published, ∃ part change,
      event.data = .change part change ∧ part ∈ parts ∧ change ∈ world.database part)
    (sound : stream.Sound world.published) :
    (world.readPart part stream).Sound world.published := by
  unfold readPart
  split
  · rename_i content reading
    intro stillOpen
    have before := sound stillOpen
    simp only [reading] at before
    refine ⟨before.1, ?_⟩
    intro event member about change announces changes read
    rcases List.mem_append.mp read with old | new
    · exact before.2 event member about change announces changes old
    · cases List.mem_singleton.mp new
      obtain ⟨about', change', announces', -, held⟩ := carried event member
      rw [announces] at announces'
      cases announces'
      exact held
  · exact sound

theorem keepsListening_readPart (part : Part) (stream : EventStream Part Change) :
    KeepsListening (world.readPart part) stream := by
  unfold KeepsListening readPart
  split
  · rename_i content reading
    simp [EventStream.Listening, reading]
  · simp +contextual [EventStream.Listening]

theorem begin_sound {encodes : Bool} {content : List (Part × List Change)}
    (sound : world.Sound parts)
    (found : world.streams id = some stream) (reading : stream.phase = .reading content)
    (all : ∀ part ∈ parts, part ∈ content.map Prod.fst) :
    (world.begin id encodes content stream).Sound parts := by
  have soundStream : (stream.begin encodes content).Sound world.published := by
    refine EventStream.sound_begin reading (sound.streams id stream found) all ?_
    intro event member
    obtain ⟨part, change, announces, about, -⟩ := sound.carried event member
    exact ⟨part, change, announces, about⟩
  unfold begin
  simp only
  split
  · rename_i leaves
    refine update_sound sound ?_ ?_
    · intro one there
      cases found.symm.trans there
      simp [KeepsListening, EventStream.begin, leaves, EventStream.Listening, reading]
    · intro one there _
      cases found.symm.trans there
      exact soundStream
  · rename_i begins
    have silent : id ∉ world.subs := by
      rw [sound.registered.listening]
      rintro ⟨one, there, listening⟩
      cases found.symm.trans there
      exact absurd listening.1 (by simp [reading])
    have opens : (stream.begin encodes content).Listening := by
      simp only [Bool.or_eq_true, Bool.not_eq_true', not_or, Bool.not_eq_true,
        Bool.not_eq_false] at begins
      simp [EventStream.begin, begins.1, begins.2, EventStream.Listening]
    have unchanged : (world.update id (EventStream.begin encodes content)).subs = world.subs := by
      simp [update, found, opens.2]
    have stillClosable : (world.update id (EventStream.begin encodes content)).closers =
        world.closers := by
      simp [update, found, opens.2]
    refine ⟨⟨?_, ?_, ?_⟩, ?_, by simpa using sound.carried⟩
    · simp only [unchanged]
      exact List.nodup_append.mpr ⟨sound.registered.nodup, List.nodup_singleton id, by
        rintro one old other new rfl
        rw [List.mem_singleton] at new
        exact silent (new ▸ old)⟩
    · intro other
      simp only [unchanged, List.mem_append, List.mem_singleton, update_streams,
        sound.registered.listening]
      by_cases same : other = id
      · subst same
        simp [found, opens]
      · simp [same]
    · intro other one there stillOpen
      simp only [update_streams] at there
      simp only [stillClosable]
      split at there
      · rename_i same
        subst same
        refine sound.registered.closable other stream found ?_
        simp only [Bool.or_eq_true, not_or, Bool.not_eq_true] at begins
        exact begins.1
      · exact sound.registered.closable other one there stillOpen
    · intro other one there
      simp only [update_streams] at there
      split at there
      · rw [found] at there
        cases there
        simpa using soundStream
      · simpa using sound.streams other one there

/-- A publication of a change that the state has taken, while no stream that is
being opened has read the part without it.  All other steps are timely. -/
def Timely (parts : List Part) (event : Event (HubWorld Part Change) (HubLabel Part Change)) :
    Prop :=
  match event.label with
  | .publish _ part change _ =>
      part ∈ parts ∧ change ∈ event.before.database part ∧ event.before.Prepared part change
  | _ => True

instance [DecidableEq Change] (world : HubWorld Part Change) (part : Part) (change : Change) :
    Decidable (world.Prepared part change) :=
  inferInstanceAs (Decidable (∀ id ∈ world.closers, ∀ read ∈ world.partsRead id,
    read.1 = part → change ∈ read.2))

instance [DecidableEq Change] (parts : List Part)
    (event : Event (HubWorld Part Change) (HubLabel Part Change)) :
    Decidable (Timely parts event) :=
  match event with
  | ⟨before, .publish _ part change _, _⟩ =>
      inferInstanceAs (Decidable (part ∈ parts ∧ change ∈ before.database part ∧
        before.Prepared part change))
  | ⟨_, .commit _ _, _⟩ | ⟨_, .openEventStream _, _⟩ | ⟨_, .read _ _, _⟩
  | ⟨_, .snapshot _ _, _⟩ | ⟨_, .reject _, _⟩ | ⟨_, .disconnect _, _⟩ | ⟨_, .close _, _⟩
  | ⟨_, .pressure _ _, _⟩ | ⟨_, .tick _ _, _⟩ | ⟨_, .answered _ _, _⟩ | ⟨_, .closeAll, _⟩ =>
      isTrue trivial

theorem act_sound {label : HubLabel Part Change} {after : HubWorld Part Change}
    (stepped : world.act parts label = some after) (sound : world.Sound parts)
    (timely : Timely parts ⟨world, label, after⟩) : after.Sound parts := by
  cases label with simp only [act] at stepped
  | commit part change =>
      cases stepped
      exact commit_sound part change sound
  | publish event part change encodes =>
      cases stepped
      exact publish_sound sound timely.1 timely.2.1 timely.2.2
  | openEventStream id =>
      split at stepped
      · cases stepped
      · rename_i fresh
        cases stepped
        exact openEventStream_sound sound fresh
  | read id part =>
      split at stepped
      · split at stepped
        · cases stepped
          exact update_sound sound (fun stream _ => keepsListening_readPart part stream)
            fun stream _ => readPart_sound sound.carried
        · cases stepped
      · cases stepped
  | snapshot id encodes =>
      split at stepped
      · rename_i content closed response found
        split at stepped
        · rename_i all
          cases stepped
          exact begin_sound sound found rfl all
        · cases stepped
      · cases stepped
  | reject id =>
      split at stepped
      · rename_i content closed response found
        cases stepped
        refine update_sound sound ?_ ?_
        · intro stream there
          cases found.symm.trans there
          simp [KeepsListening, EventStream.Listening]
        · intro stream there before stillOpen
          cases found.symm.trans there
          exact (before stillOpen).1
      · cases stepped
  | disconnect id =>
      cases stepped
      exact update_sound sound
        (fun stream _ => keepsListening_response (fun response => { response with destroyed := true }) stream)
        fun stream _ before => EventStream.sound_response before rfl (by simp [ServerResponse.gone])
  | close id =>
      cases stepped
      exact update_sound sound (fun stream _ => keepsListening_finish false stream)
        fun stream _ _ => EventStream.sound_finish false
  | pressure id length =>
      cases stepped
      exact update_sound sound
        (fun stream _ => keepsListening_response
          (fun response => { response with writableLength := length }) stream)
        fun stream _ before => EventStream.sound_response before rfl fun gone => gone
  | tick id asks =>
      split at stepped
      · cases stepped
        exact update_sound sound (fun stream _ => keepsListening_tick asks stream)
          fun stream _ => EventStream.sound_tick asks
      · cases stepped
  | answered id alive =>
      split at stepped
      · cases stepped
        exact update_sound sound (fun stream _ => keepsListening_answered alive stream)
          fun stream _ => EventStream.sound_answered alive
      · cases stepped
  | closeAll =>
      cases stepped
      exact updateAll_sound sound (keepsListening_finish true)
        fun _ _ _ => EventStream.sound_finish true

omit [DecidableEq Part] in
theorem nothingLost_of_sound (sound : world.Sound parts) : NothingLost world := by
  intro id stream found stillOpen received
  have complete : Complete stream.response.events world.published := by
    have here := sound.streams id stream found stillOpen
    cases phase : stream.phase with
    | reading content => exact absurd (by simpa [phase] using here) (by simp [received])
    | left => exact absurd (by simpa [phase] using here) received
    | subscribed =>
        simp only [phase] at here
        rcases here with ⟨nothing, -⟩ | complete
        · exact absurd nothing received
        · exact complete
  refine ⟨complete, fun part change announced => viewed_of_complete ?_ complete announced⟩
  intro event member
  obtain ⟨part, change, announces, -⟩ := sound.carried event member
  exact ⟨part, change, announces⟩

omit [DecidableEq Part] in
theorem sound_empty (database : Part → List Change) :
    ({ database := database } : HubWorld Part Change).Sound parts := by
  exact ⟨⟨List.nodup_nil, by simp, by simp⟩, by simp, by simp⟩

end HubWorld

/-- In a run whose publications are all timely, no viewer misses an event. -/
theorem no_update_lost_of_timely [DecidableEq Part] {parts : List Part}
    {database : Part → List Change}
    {history : List (Event (HubWorld Part Change) (HubLabel Part Change))}
    {final : HubWorld Part Change}
    (run : Follows (fun before label after => before.act parts label = some after)
      { database := database } history final)
    (timely : ∀ event ∈ history, HubWorld.Timely parts event) :
    NothingLost final ∧ ∀ event ∈ history, NothingLost event.before := by
  have initially : ({ database := database } : HubWorld Part Change).Sound parts :=
    HubWorld.sound_empty database
  have preserved : ∀ event ∈ history, event.before.act parts event.label = some event.after →
      event.before.Sound parts → event.after.Sound parts := fun event member stepped sound =>
    HubWorld.act_sound stepped sound (timely event member)
  exact ⟨HubWorld.nothingLost_of_sound (run.invariant_along _ initially preserved),
    fun event member =>
      HubWorld.nothingLost_of_sound (run.throughout _ initially preserved event member)⟩

section Runs

/-- A stream is opened and has read the health rows; `before` happens before it reads
the rest, `after` when it has subscribed. -/
def openingWith (before after : List (HubLabel SnapshotPart String)) :
    List (HubLabel SnapshotPart String) :=
  [.openEventStream 0, .read 0 .health] ++ before ++
    [.read 0 .head, .read 0 .failedApply, .read 0 .driver, .read 0 .pendingApplies,
      .read 0 .leader, .snapshot 0 true] ++ after

def backendDown : List (HubLabel SnapshotPart String) :=
  [.commit .health "b1 down", .publish "health" .health "b1 down" true]

theorem no_update_lost_after_the_snapshot :
    ∃ history final,
      Follows (fun before label after => before.act snapshotParts label = some after)
        ({} : HubWorld SnapshotPart String) history final ∧
      history.map Event.label = openingWith [] backendDown ∧ NothingLost final := by
  obtain ⟨history, final, run, labels, timely⟩ := @follows_of_attempt _ _
    (fun world label => HubWorld.act snapshotParts world label)
    ({} : HubWorld SnapshotPart String) (openingWith [] backendDown)
    (fun (history, _) => decide (∀ event ∈ history, HubWorld.Timely snapshotParts event))
    (by decide +kernel)
  exact ⟨history, final, run, labels, (no_update_lost_of_timely run (of_decide_eq_true timely)).1⟩

/-- The health rows have been read, then a backend goes down while the rest of
the snapshot is still awaited: the stream says that nothing has happened. -/
theorem an_update_is_lost_during_the_snapshot :
    ∃ history final,
      Follows (fun before label after => before.act snapshotParts label = some after)
        ({} : HubWorld SnapshotPart String) history final ∧
      history.map Event.label = openingWith backendDown [] ∧ ¬ NothingLost final := by
  let lost : EventStream SnapshotPart String :=
    { phase := .subscribed
      response :=
        { written := [.event
          { event := "snapshot"
            data := .snapshot [(.health, []), (.head, []), (.failedApply, []), (.driver, []),
              (.pendingApplies, []), (.leader, [])] }] } }
  let announced : SseEvent SnapshotPart String :=
    { event := "health", data := .change .health "b1 down", id := some "1" }
  obtain ⟨history, final, run, labels, holds⟩ := @follows_of_attempt _ _
    (fun world label => HubWorld.act snapshotParts world label)
    ({} : HubWorld SnapshotPart String) (openingWith backendDown [])
    (fun (_, final) => decide (final.streams 0 = some lost ∧ final.published = [announced]))
    (by decide +kernel)
  obtain ⟨stream, published⟩ := of_decide_eq_true holds
  refine ⟨history, final, run, labels, fun nothingLost => ?_⟩
  have known := (nothingLost 0 lost stream rfl (by decide)).2 .health "b1 down"
    ⟨announced, by simp [published], rfl⟩
  exact absurd known (by decide)

end Runs

end Barycenter.Api
