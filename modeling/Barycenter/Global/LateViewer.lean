import Barycenter.Global.SharedStream
import Mathlib.Data.List.Induction

/-!
# A late viewer of a shared stream

The replay of a connection leads to the same state as all its frames, since a
snapshot replaces the state and heartbeats do not change it.  So a viewer that
came late agrees with one that was there from the beginning, provided the test
of the relay and the viewer call the same frames snapshots.
-/

namespace Barycenter.Global

/-! ## Folding frames -/

structure Reading (State : Type) where
  replace : SseMessage → State
  update : State → SseMessage → State

namespace Reading

variable {State : Type} (reading : Reading State)

/-- A snapshot replaces the state, any other event updates it. -/
def take (state : State) (frame : Text) : State :=
  match messageOf frame with
  | none => state
  | some message =>
      if message.isSnapshot then reading.replace message
      else reading.update state message

def fold (state : State) (frames : List Text) : State := frames.foldl reading.take state

@[simp] theorem fold_append (state : State) (first second : List Text) :
    reading.fold state (first ++ second) = reading.fold (reading.fold state first) second :=
  List.foldl_append

@[simp] theorem fold_nil (state : State) : reading.fold state [] = state := rfl

theorem fold_singleton (state : State) (frame : Text) :
    reading.fold state [frame] = reading.take state frame := rfl

theorem take_snapshot {frame : Text} (snapshot : readsSnapshot frame = true)
    (state other : State) : reading.take state frame = reading.take other frame := by
  obtain ⟨message, read, isSnapshot⟩ := (Option.any_eq_true _ _).mp snapshot
  simp only [take, read, isSnapshot, if_true]

theorem fold_of_snapshot {frames : List Text}
    (snapshot : ∃ frame ∈ frames, readsSnapshot frame = true) (state other : State) :
    reading.fold state frames = reading.fold other frames := by
  induction frames generalizing state other with
  | nil => simp at snapshot
  | cons frame rest induction =>
      cases reads : readsSnapshot frame with
      | true =>
          simp only [fold, List.foldl_cons, reading.take_snapshot reads state other]
      | false =>
          obtain ⟨found, member, isSnapshot⟩ := snapshot
          rcases List.mem_cons.mp member with rfl | later
          · simp [reads] at isSnapshot
          · exact induction ⟨found, later, isSnapshot⟩ _ _

end Reading

/-! ## The replay -/

def record (replay : List Text) (frame : Text) : List Text :=
  if isHeartbeat frame then replay
  else if testsSnapshot frame then [frame]
  else replay ++ [frame]

def replayOf (frames : List Text) : List Text := frames.foldl record []

@[simp] theorem replayOf_nil : replayOf [] = [] := rfl

@[simp] theorem replayOf_append_singleton (frames : List Text) (frame : Text) :
    replayOf (frames ++ [frame]) = record (replayOf frames) frame := by
  simp [replayOf]

/-- A complete frame that the relay and the viewer read alike. -/
def Recognised (frame : Text) : Prop := testsSnapshot frame = readsSnapshot frame

instance (frame : Text) : Decidable (Recognised frame) :=
  inferInstanceAs (Decidable (_ = _))

def Ended (frame : Text) : Prop := frame = blockOf frame ++ ['\n', '\n']

theorem replayOf_sublist (frames : List Text) : (replayOf frames).Sublist frames := by
  induction frames using List.reverseRecOn with
  | nil => exact List.Sublist.refl _
  | append_singleton frames frame induction =>
      rw [replayOf_append_singleton, record]
      split
      · exact induction.trans (List.sublist_append_left frames [frame])
      · split
        · exact List.sublist_append_right frames [frame]
        · exact induction.append (List.Sublist.refl _)

theorem fold_replayOf {State : Type} (reading : Reading State) (state : State)
    {frames : List Text} (recognised : ∀ frame ∈ frames, Recognised frame)
    (ended : ∀ frame ∈ frames, Ended frame) :
    reading.fold state (replayOf frames) = reading.fold state frames := by
  induction frames using List.reverseRecOn with
  | nil => rfl
  | append_singleton frames frame induction =>
      have before := induction
        (fun other member => recognised other (List.mem_append_left _ member))
        (fun other member => ended other (List.mem_append_left _ member))
      have last : frame ∈ frames ++ [frame] := List.mem_append_right _ List.mem_cons_self
      rw [replayOf_append_singleton, record, reading.fold_append, reading.fold_singleton]
      split
      · rename_i heartbeat
        rw [before, Reading.take, messageOf_heartbeat (ended frame last) heartbeat]
      · split
        · rename_i snapshot
          rw [recognised frame last] at snapshot
          rw [reading.fold_singleton]
          exact reading.take_snapshot snapshot _ _
        · rw [reading.fold_append, reading.fold_singleton, before]

/-! ## What a viewer has been given -/

/-- Since the current connection was opened, a viewer was given the replay of the
frames before it was greeted and every frame after that. -/
def Viewer.Kept (stream : SharedStream) (viewer : Viewer) : Prop :=
  if viewer.headersSent then
    viewer.joined ≤ stream.connection.length ∧ viewer.missed ≤ stream.delivered.length ∧
      viewer.written = viewer.before ++ replayOf (stream.connection.take viewer.joined) ++
        stream.connection.drop viewer.joined ∧
      (viewer.missed = 0 → viewer.written = stream.delivered)
  else viewer.written = [] ∧ viewer.before = []

namespace SharedStream

structure Followed (stream : SharedStream) : Prop where
  replay : stream.replay = replayOf stream.connection
  ended : ∀ frame ∈ stream.delivered, Ended frame
  suffix : stream.connection <:+ stream.delivered
  kept : ∀ id ∈ stream.subs, ∀ viewer, stream.viewers id = some viewer → viewer.Kept stream
  quiet : stream.live = false → stream.connection = []
  answered : stream.gone = false → stream.answers stream.up = some 200 → stream.live = true
  fresh : ∀ up, stream.up < up → stream.answers up = none

def Greeted (stream : SharedStream) : Prop :=
  stream.live = true → ∀ id ∈ stream.subs, ∀ viewer,
    stream.viewers id = some viewer → viewer.headersSent = true

/-- The frames of the connection and the rest of its text. -/
def Cut (stream : SharedStream) : Prop :=
  framesOf stream.text = (stream.connection, stream.buf)

def Cutting (stream : SharedStream) : Prop :=
  framesOf stream.text =
    (stream.connection ++ (framesOf stream.buf).1, (framesOf stream.buf).2)

structure Sound (stream : SharedStream) : Prop where
  followed : stream.Followed
  greeted : stream.Greeted
  short : stream.replay.length ≤ replayMax
  cut : stream.Cut

variable {stream : SharedStream} {frame : Text}

theorem kept_deliver {viewer : Viewer} (kept : viewer.Kept stream)
    (greeted : viewer.headersSent = true) : (viewer.write frame).Kept (stream.deliver frame) := by
  simp only [Viewer.Kept, greeted, if_true] at kept
  obtain ⟨joined, missed, written, whole⟩ := kept
  simp only [Viewer.Kept, Viewer.write, greeted, if_true, deliver, List.length_append,
    List.length_singleton]
  refine ⟨by omega, by omega, ?_, fun first => by rw [whole first]⟩
  rw [written, List.take_append_of_le_length joined, List.drop_append_of_le_length joined]
  simp

theorem deliver_followed (followed : stream.Followed) (live : stream.live = true)
    (greeted : stream.Greeted) (ended : Ended frame) :
    ({ stream.deliver frame with replay := record stream.replay frame } :
      SharedStream).Followed := by
  refine ⟨?_, ?_, ?_, ?_, ?_, followed.answered, followed.fresh⟩
  · simp only [deliver, replayOf_append_singleton, followed.replay]
  · intro other member
    rcases List.mem_append.mp member with old | new
    · exact followed.ended other old
    · rw [List.mem_singleton] at new
      exact new ▸ ended
  · obtain ⟨earlier, whole⟩ := followed.suffix
    exact ⟨earlier, by simp [deliver, ← whole]⟩
  · intro id member viewer found
    simp only [deliver, withViewers] at member found
    rw [if_pos member] at found
    obtain ⟨before, there, rfl⟩ := Option.map_eq_some_iff.mp found
    exact kept_deliver (followed.kept id member before there) (greeted live id member before there)
  · intro silent
    exact absurd live (by simpa [deliver, withViewers] using silent)

theorem deliver_greeted (greeted : stream.Greeted) : (stream.deliver frame).Greeted := by
  intro live id member viewer found
  simp only [deliver, withViewers] at member found
  rw [if_pos member] at found
  obtain ⟨before, there, rfl⟩ := Option.map_eq_some_iff.mp found
  exact greeted live id member before there

theorem connect_followed (followed : stream.Followed) : stream.connect.Followed := by
  refine ⟨rfl, followed.ended, List.nil_suffix, ?_, fun _ => rfl, ?_, ?_⟩
  · intro id member viewer found
    obtain ⟨before, there, rfl⟩ := Option.map_eq_some_iff.mp found
    have kept := followed.kept id member before there
    simp only [Viewer.Kept] at kept
    split at kept
    · rename_i greeted
      simp only [Viewer.Kept, Viewer.mark, greeted, if_true, connect]
      exact ⟨Nat.zero_le _, kept.2.1, by simp, kept.2.2.2⟩
    · rename_i waiting
      simp only [Viewer.Kept, Viewer.mark, waiting]
      simp [kept.1]
  · intro _ answered
    rw [show stream.connect.answers stream.connect.up = none from
      followed.fresh _ (Nat.lt_succ_self _)] at answered
    cases answered
  · intro up later
    exact followed.fresh up (Nat.lt_of_succ_lt later)

theorem drain_sound {fuel : Nat} (followed : stream.Followed) (live : stream.live = true)
    (greeted : stream.Greeted) (short : stream.replay.length ≤ replayMax) (enough : stream.buf.length ≤ fuel)
    (cutting : stream.Cutting) :
    (drain fuel stream).Sound := by
  induction fuel generalizing stream with
  | zero =>
      have empty : stream.buf = [] := List.length_eq_zero_iff.mp (Nat.le_zero.mp enough)
      refine ⟨followed, greeted, short, ?_⟩
      simpa [Cutting, drain, Cut, empty, framesOf] using cutting
  | succ fuel induction =>
      rw [drain]
      cases found : nextFrame stream.buf with
      | none =>
          refine ⟨followed, greeted, short, ?_⟩
          simpa [Cutting, Cut, framesOf_of_no_frame found] using cutting
      | some pair =>
          obtain ⟨frame, rest⟩ := pair
          obtain ⟨whole, nonempty⟩ := nextFrame_split found
          have positive := List.length_pos_of_ne_nil nonempty
          have shorter : rest.length ≤ fuel := by
            rw [whole, List.length_append] at enough
            omega
          have aside : ({ stream with buf := rest } : SharedStream).Followed :=
            ⟨followed.replay, followed.ended, followed.suffix, followed.kept, followed.quiet,
              followed.answered, followed.fresh⟩
          have delivered := deliver_followed aside live greeted (nextFrame_ends found)
          have told : (({ stream with buf := rest } : SharedStream).deliver frame).Greeted :=
            deliver_greeted greeted
          have further : ∀ replay, ({ ({ stream with buf := rest } : SharedStream).deliver frame
              with replay := replay } : SharedStream).Cutting := by
            intro replay
            simpa [Cutting, deliver, withViewers, framesOf_of_nextFrame found] using cutting
          simp only
          split
          · rename_i heartbeat
            have unrecorded : record stream.replay frame = stream.replay := by
              simp [record, heartbeat]
            simp only [unrecorded] at delivered
            exact induction delivered live told short shorter (further stream.replay)
          · rename_i said
            split
            · rename_i snapshot
              have recorded : record stream.replay frame = [frame] := by
                simp [record, said, snapshot]
              simp only [recorded] at delivered
              exact induction delivered live told (by simp [replayMax]) shorter (further [frame])
            · rename_i other
              have recorded : record stream.replay frame = stream.replay ++ [frame] := by
                simp [record, said, other]
              simp only [recorded] at delivered
              split
              · have reconnected := connect_followed delivered
                exact ⟨reconnected, (fun running => by cases running), Nat.zero_le _, rfl⟩
              · rename_i fits
                exact induction delivered live told (by simpa using fits) shorter (further _)

theorem drain_delivered {fuel : Nat} {holds : Text → Prop}
    (before : ∀ frame ∈ stream.delivered, holds frame)
    (buffered : ∀ frame ∈ (framesOf stream.buf).1, holds frame) :
    ∀ frame ∈ (drain fuel stream).delivered, holds frame := by
  induction fuel generalizing stream with
  | zero => exact before
  | succ fuel induction =>
      rw [drain]
      cases found : nextFrame stream.buf with
      | none => exact before
      | some pair =>
          obtain ⟨frame, rest⟩ := pair
          rw [framesOf_of_nextFrame found] at buffered
          have here : ∀ other ∈ stream.delivered ++ [frame], holds other := by
            intro other member
            rcases List.mem_append.mp member with old | new
            · exact before other old
            · rw [List.mem_singleton] at new
              exact new ▸ buffered frame List.mem_cons_self
          have later : ∀ other ∈ (framesOf rest).1, holds other :=
            fun other member => buffered other (List.mem_cons_of_mem _ member)
          simp only
          split
          · exact induction here later
          · split
            · exact induction here later
            · split
              · exact here
              · exact induction here later

theorem greet_kept {viewer : Viewer} (followed : stream.Followed) (kept : viewer.Kept stream) :
    (if viewer.headersSent then viewer
      else viewer.greet stream.replay stream.connection.length stream.delivered.length).Kept
        stream := by
  split
  · exact kept
  · rename_i waiting
    simp only [Viewer.Kept, waiting] at kept
    simp only [Bool.false_eq_true, if_false] at kept
    simp only [Viewer.Kept, Viewer.greet, if_true, kept.1, kept.2, List.nil_append,
      List.take_length, List.drop_length, List.append_nil, followed.replay, Nat.le_refl, true_and]
    intro first
    have nothing : stream.delivered = [] := List.length_eq_zero_iff.mp first
    have none : stream.connection = [] := List.suffix_nil.mp (nothing ▸ followed.suffix)
    simp [nothing, none]

variable {ids : List Nat}

theorem greetAll_followed (followed : stream.Followed) : (stream.greetAll ids).Followed := by
  refine ⟨followed.replay, followed.ended, followed.suffix, ?_, followed.quiet,
    followed.answered, followed.fresh⟩
  intro id member viewer found
  simp only [greetAll, withViewers] at found
  split at found
  · obtain ⟨before, there, rfl⟩ := Option.map_eq_some_iff.mp found
    have kept := greet_kept followed (followed.kept id member before there)
    exact kept
  · exact followed.kept id member viewer found

theorem greetAll_greeted
    (others : ∀ id ∈ stream.subs, id ∉ ids → ∀ viewer, stream.viewers id = some viewer →
      viewer.headersSent = true) : (stream.greetAll ids).Greeted := by
  intro live id member viewer found
  simp only [greetAll, withViewers] at found
  split at found
  · obtain ⟨before, there, rfl⟩ := Option.map_eq_some_iff.mp found
    split
    · assumption
    · rfl
  · rename_i absent
    exact others id member absent viewer found

theorem join_sound {viewer : Nat} (sound : stream.Sound) : (stream.join viewer).Sound := by
  have joined : ({ stream with
      idle := false
      subs := stream.subs ++ [viewer]
      viewers := Function.update stream.viewers viewer (some {}) } : SharedStream).Followed := by
    refine ⟨sound.followed.replay, sound.followed.ended, sound.followed.suffix, ?_,
      sound.followed.quiet, sound.followed.answered, sound.followed.fresh⟩
    intro id member one found
    simp only [Function.update_apply] at found
    split at found
    · cases found
      simp [Viewer.Kept]
    · rename_i different
      have member : id ∈ stream.subs := by simpa [different] using member
      exact sound.followed.kept id member one found
  unfold join
  simp only
  split
  · rename_i live
    refine ⟨greetAll_followed joined, greetAll_greeted ?_, sound.short, sound.cut⟩
    intro id member absent one found
    have different : id ≠ viewer := by simpa using absent
    have member : id ∈ stream.subs := by simpa [different] using member
    exact sound.greeted live id member one (by simpa [different] using found)
  · rename_i waiting
    exact ⟨joined, fun live => absurd live waiting, sound.short, sound.cut⟩

theorem leave_sound {subs : List Nat} {idle : Bool} (sound : stream.Sound)
    (fewer : ∀ id ∈ subs, id ∈ stream.subs) :
    ({ stream with subs := subs, idle := idle } : SharedStream).Sound :=
  ⟨⟨sound.followed.replay, sound.followed.ended, sound.followed.suffix,
      fun id member => sound.followed.kept id (fewer id member), sound.followed.quiet,
      sound.followed.answered, sound.followed.fresh⟩,
    fun live id member => sound.greeted live id (fewer id member), sound.short, sound.cut⟩

theorem cleared_sound {viewers : Nat → Option Viewer} {idle gone : Bool} (sound : stream.Sound)
    (stops : gone = false → stream.gone = false) :
    ({ stream with viewers := viewers, subs := [], idle := idle, gone := gone } :
      SharedStream).Sound :=
  ⟨⟨sound.followed.replay, sound.followed.ended, sound.followed.suffix, by simp,
      sound.followed.quiet, fun running => sound.followed.answered (stops running), sound.followed.fresh⟩,
    fun _ _ member => absurd member List.not_mem_nil, sound.short, sound.cut⟩

theorem shutdown_sound (sound : stream.Sound) : stream.shutdown.Sound := by
  unfold shutdown
  split
  · exact sound
  · have cleared : ({ stream with
        viewers := (stream.withViewers stream.subs Viewer.finish).viewers
        subs := []
        idle := false
        gone := true } : SharedStream).Sound := cleared_sound sound nofun
    exact cleared

theorem withoutSubs_sound {action : Viewer → Viewer} (sound : stream.Sound) :
    ({ stream.withViewers ids action with subs := [] } : SharedStream).shutdown.Sound := by
  have cleared : ({ stream with
      viewers := (stream.withViewers ids action).viewers
      subs := [] } : SharedStream).Sound := cleared_sound sound id
  exact shutdown_sound cleared

theorem response_sound {up status : Nat} (sound : stream.Sound) :
    (stream.response up status).Sound := by
  unfold response
  split
  · exact sound
  · rename_i isCurrent
    have current : stream.up = up := by
      simp only [SharedStream.current, Bool.not_eq_true', Bool.not_eq_false, Bool.and_eq_true,
        beq_iff_eq] at isCurrent
      exact isCurrent.1
    have later : ∀ other, stream.up < other →
        Function.update stream.answers up (some status) other = none := by
      intro other above
      rw [Function.update_of_ne (by omega)]
      exact sound.followed.fresh other above
    simp only
    split
    · rename_i failed
      refine ⟨⟨sound.followed.replay, sound.followed.ended, sound.followed.suffix,
        sound.followed.kept, sound.followed.quiet, ?_, later⟩, sound.greeted, sound.short, sound.cut⟩
      intro _ answered
      simp only [current, Function.update_self, Option.some.injEq] at answered
      exact absurd answered failed
    · have listening : ({ stream with
          answers := Function.update stream.answers up (some status)
          live := true } : SharedStream).Followed :=
        ⟨sound.followed.replay, sound.followed.ended, sound.followed.suffix,
          sound.followed.kept, (fun waiting => by cases waiting), fun _ _ => rfl, later⟩
      exact ⟨greetAll_followed listening,
        greetAll_greeted fun id member absent => absurd member absent, sound.short, sound.cut⟩

theorem feed_sound {chunk : Text} (sound : stream.Sound) (live : stream.live = true) :
    (stream.feed chunk).Sound := by
  refine drain_sound ?_ live sound.greeted sound.short (by simp) ?_
  · exact ⟨sound.followed.replay, sound.followed.ended, sound.followed.suffix,
      sound.followed.kept, sound.followed.quiet, sound.followed.answered, sound.followed.fresh⟩
  · have cut := sound.cut
    simp only [Cut] at cut
    simp only [Cutting]
    rw [framesOf_append, cut]

theorem act_sound {label : SharedLabel} {after : SharedStream}
    (stepped : stream.act label = some after) (sound : stream.Sound) : after.Sound := by
  cases label with simp only [act] at stepped
  | join viewer =>
      split at stepped
      · cases stepped
      · cases stepped
        exact join_sound sound
  | leave viewer =>
      split at stepped
      · cases stepped
      · cases stepped
        have fewer : ∀ id ∈ stream.subs.erase viewer, id ∈ stream.subs :=
          fun id member => List.mem_of_mem_erase member
        unfold leave
        simp only
        split
        · exact leave_sound sound fewer
        · exact leave_sound sound fewer
  | idleTimeout =>
      split at stepped
      · cases stepped
        exact shutdown_sound sound
      · cases stepped
  | shutdown =>
      cases stepped
      exact shutdown_sound sound
  | response up status =>
      split at stepped
      · cases stepped
      · cases stepped
        exact response_sound sound
  | data up chunk =>
      split at stepped
      · rename_i answered
        cases stepped
        split
        · rename_i isCurrent
          simp only [current, Bool.and_eq_true, beq_iff_eq, Bool.not_eq_true'] at isCurrent
          obtain ⟨rfl, running⟩ := isCurrent
          exact feed_sound sound (sound.followed.answered running answered)
        · exact sound
      · cases stepped
  | ended up =>
      split at stepped
      · cases stepped
        split
        · exact shutdown_sound sound
        · exact sound
      · cases stepped
  | refused up body =>
      split at stepped
      · cases stepped
      · split at stepped
        · cases stepped
        · cases stepped
          exact withoutSubs_sound sound
  | requestError up message =>
      split at stepped
      · cases stepped
      · cases stepped
        split
        · exact withoutSubs_sound sound
        · exact sound

/-- Every frame of the chunk that a step brings is read alike. -/
def Recognisable (event : Event SharedStream SharedLabel) : Prop :=
  match event.label with
  | .data _ chunk => ∀ frame ∈ (framesOf (event.before.buf ++ chunk)).1, Recognised frame
  | _ => True

instance (event : Event SharedStream SharedLabel) : Decidable (Recognisable event) :=
  match event with
  | ⟨before, .data _ chunk, _⟩ =>
      inferInstanceAs (Decidable (∀ frame ∈ (framesOf (before.buf ++ chunk)).1, Recognised frame))
  | ⟨_, .join _, _⟩ | ⟨_, .leave _, _⟩ | ⟨_, .idleTimeout, _⟩ | ⟨_, .shutdown, _⟩
  | ⟨_, .response _ _, _⟩ | ⟨_, .ended _, _⟩ | ⟨_, .refused _ _, _⟩
  | ⟨_, .requestError _ _, _⟩ => isTrue trivial

@[simp] theorem withViewers_delivered (ids : List Nat) (action : Viewer → Viewer) :
    (stream.withViewers ids action).delivered = stream.delivered := rfl

@[simp] theorem shutdown_delivered : stream.shutdown.delivered = stream.delivered := by
  unfold shutdown
  split <;> rfl

@[simp] theorem join_delivered (viewer : Nat) :
    (stream.join viewer).delivered = stream.delivered := by
  unfold join
  simp only
  split <;> rfl

@[simp] theorem leave_delivered (viewer : Nat) :
    (stream.leave viewer).delivered = stream.delivered := by
  unfold leave
  simp only
  split <;> rfl

@[simp] theorem response_delivered (up status : Nat) :
    (stream.response up status).delivered = stream.delivered := by
  unfold response
  split
  · rfl
  · simp only
    split <;> rfl

theorem act_recognised {label : SharedLabel} {after : SharedStream}
    (stepped : stream.act label = some after)
    (recognisable : Recognisable ⟨stream, label, after⟩)
    (recognised : ∀ frame ∈ stream.delivered, Recognised frame) :
    ∀ frame ∈ after.delivered, Recognised frame := by
  cases label with simp only [act] at stepped
  | data up chunk =>
      split at stepped
      · cases stepped
        split
        · exact drain_delivered recognised recognisable
        · exact recognised
      · cases stepped
  | join viewer | leave viewer | response up status =>
      split at stepped
      · cases stepped
      · cases stepped
        simpa using recognised
  | idleTimeout =>
      split at stepped
      · cases stepped
        simpa using recognised
      · cases stepped
  | shutdown =>
      cases stepped
      simpa using recognised
  | ended up =>
      split at stepped
      · cases stepped
        split <;> simpa using recognised
      · cases stepped
  | refused up body =>
      split at stepped
      · cases stepped
      · split at stepped
        · cases stepped
        · cases stepped
          simpa [refuseAll] using recognised
  | requestError up message =>
      split at stepped
      · cases stepped
      · cases stepped
        split
        · simpa [failAll] using recognised
        · exact recognised

theorem sound_empty : ({} : SharedStream).Sound := by
  refine ⟨⟨rfl, by simp, List.nil_suffix, by simp, fun _ => rfl, by simp, by simp⟩, nofun,
    Nat.zero_le _, rfl⟩

end SharedStream

/-! ## Runs -/

/-- The viewer's state is that of a viewer who was there from the beginning, and
since the connection was opened it has been given its frames from the last
snapshot before it came on, none of them twice. -/
structure CaughtUp {State : Type} (reading : Reading State) (initial : State)
    (stream : SharedStream) (viewer : Viewer) : Prop where
  state : (∃ frame ∈ stream.connection, readsSnapshot frame = true) →
    reading.fold initial viewer.written = reading.fold initial stream.delivered
  first : viewer.headersSent = true → viewer.missed = 0 → viewer.written = stream.delivered
  given : viewer.headersSent = true → viewer.written = viewer.before ++
    (replayOf (stream.connection.take viewer.joined) ++ stream.connection.drop viewer.joined)
  once : (replayOf (stream.connection.take viewer.joined) ++
    stream.connection.drop viewer.joined).Sublist stream.connection

/-- Every viewer has caught up with all complete frames of the current
connection, and the replay is within its limit. -/
structure Caught {State : Type} (reading : Reading State) (initial : State)
    (stream : SharedStream) : Prop where
  viewers : ∀ id ∈ stream.subs, ∀ viewer, stream.viewers id = some viewer →
    CaughtUp reading initial stream viewer
  complete : stream.connection = (framesOf stream.text).1
  bounded : stream.replay.length ≤ replayMax

theorem caught_of_sound {State : Type} (reading : Reading State) (initial : State)
    {stream : SharedStream} (sound : stream.Sound)
    (recognised : ∀ frame ∈ stream.delivered, Recognised frame) :
    Caught reading initial stream := by
  have cut := sound.cut
  simp only [SharedStream.Cut] at cut
  refine ⟨?_, by rw [cut], sound.short⟩
  intro id member viewer found
  have kept := sound.followed.kept id member viewer found
  have once : (replayOf (stream.connection.take viewer.joined) ++
      stream.connection.drop viewer.joined).Sublist stream.connection := by
    have parts := (replayOf_sublist (stream.connection.take viewer.joined)).append
      (List.Sublist.refl (stream.connection.drop viewer.joined))
    rwa [List.take_append_drop] at parts
  have fromHeaders : viewer.headersSent = true →
      viewer.joined ≤ stream.connection.length ∧ viewer.missed ≤ stream.delivered.length ∧
        viewer.written = viewer.before ++ replayOf (stream.connection.take viewer.joined) ++
          stream.connection.drop viewer.joined ∧
        (viewer.missed = 0 → viewer.written = stream.delivered) := by
    intro greeted
    simpa [Viewer.Kept, greeted] using kept
  refine ⟨?_, fun greeted => (fromHeaders greeted).2.2.2, ?_, once⟩
  · intro snapshot
    have live : stream.live = true := by
      cases silent : stream.live with
      | true => rfl
      | false =>
          obtain ⟨frame, member, -⟩ := snapshot
          rw [sound.followed.quiet silent] at member
          cases member
    obtain ⟨-, -, written, -⟩ := fromHeaders (sound.greeted live id member viewer found)
    obtain ⟨earlier, whole⟩ := sound.followed.suffix
    have here : ∀ frame ∈ stream.connection, frame ∈ stream.delivered := fun frame there =>
      sound.followed.suffix.subset there
    have early : ∀ frame ∈ stream.connection.take viewer.joined, frame ∈ stream.delivered :=
      fun frame there => here frame (List.mem_of_mem_take there)
    calc reading.fold initial viewer.written
        = reading.fold (reading.fold initial viewer.before)
            (stream.connection.take viewer.joined ++ stream.connection.drop viewer.joined) := by
          rw [written, reading.fold_append, reading.fold_append, reading.fold_append,
            fold_replayOf reading _ (fun frame there => recognised frame (early frame there))
              fun frame there => sound.followed.ended frame (early frame there)]
      _ = reading.fold (reading.fold initial viewer.before) stream.connection := by
          rw [List.take_append_drop]
      _ = reading.fold (reading.fold initial earlier) stream.connection :=
          reading.fold_of_snapshot snapshot _ _
      _ = reading.fold initial stream.delivered := by
          rw [← reading.fold_append, whole]
  · intro greeted
    rw [(fromHeaders greeted).2.2.1, List.append_assoc]

/-- In a run in which the relay and the viewers read every frame alike, all
viewers have caught up in every state. -/
theorem late_viewer_catches_up {State : Type} (reading : Reading State) (initial : State)
    {history : List (Event SharedStream SharedLabel)} {final : SharedStream}
    (run : Follows (fun before label after => before.act label = some after)
      ({} : SharedStream) history final)
    (recognisable : ∀ event ∈ history, SharedStream.Recognisable event) :
    Caught reading initial final ∧
      ∀ event ∈ history, Caught reading initial event.before := by
  let holds (stream : SharedStream) : Prop :=
    stream.Sound ∧ ∀ frame ∈ stream.delivered, Recognised frame
  have initially : holds {} := ⟨SharedStream.sound_empty, by simp⟩
  have preserved : ∀ event ∈ history, event.before.act event.label = some event.after →
      holds event.before → holds event.after := fun event member stepped sound =>
    ⟨SharedStream.act_sound stepped sound.1,
      SharedStream.act_recognised stepped (recognisable event member) sound.2⟩
  have atEnd := run.invariant_along holds initially preserved
  refine ⟨caught_of_sound reading initial atEnd.1 atEnd.2, fun event member => ?_⟩
  have there := run.throughout holds initially preserved event member
  exact caught_of_sound reading initial there.1 there.2

section Runs

/-- A viewer that keeps the data of everything since the last snapshot. -/
def journal : Reading (List (List Text)) where
  replace message := [message.data]
  update known message := known ++ [message.data]

def snapshotFrame : Text := "event: snapshot\ndata: \x7b\"head\":\"7\"\x7d\n\n".toList

def healthFrame : Text := "id: 3\nevent: health\ndata: \x7b\"state\":\"down\"\x7d\n\n".toList

/-- An event whose data quotes a line that is set off by line separators. -/
def quotingFrame : Text :=
  "id: 4\nevent: acme\ndata: \x7b\"error\":\"\u2028event: snapshot\u2028\"\x7d\n\n".toList

/-- A viewer is there from the beginning, another comes after `frame`. -/
def lateJoin (frame : Text) : List SharedLabel :=
  [.join 0, .response 0 200, .data 0 snapshotFrame, .data 0 (frame.take 9),
    .data 0 (frame.drop 9), .join 1]

theorem late_viewer_of_health :
    ∃ history final,
      Follows (fun before label after => before.act label = some after)
        ({} : SharedStream) history final ∧
      history.map Event.label = lateJoin healthFrame ∧ Caught journal [] final := by
  obtain ⟨history, final, run, labels, recognisable⟩ := @follows_of_attempt _ _
    SharedStream.act ({} : SharedStream) (lateJoin healthFrame)
    (fun (history, _) => decide (∀ event ∈ history, SharedStream.Recognisable event))
    (by decide +kernel)
  exact ⟨history, final, run, labels,
    (late_viewer_catches_up journal [] run (of_decide_eq_true recognisable)).1⟩

/-- The relay takes the quoting frame for a snapshot and forgets the real one. -/
theorem late_viewer_misses_the_snapshot :
    ∃ history final,
      Follows (fun before label after => before.act label = some after)
        ({} : SharedStream) history final ∧
      history.map Event.label = lateJoin quotingFrame ∧ ¬ Caught journal [] final := by
  obtain ⟨history, final, run, labels, holds⟩ := @follows_of_attempt _ _
    SharedStream.act ({} : SharedStream) (lateJoin quotingFrame)
    (fun (_, final) => decide (final.subs = [0, 1] ∧
      (final.viewers 1).map Viewer.written = some [quotingFrame] ∧
      final.delivered = [snapshotFrame, quotingFrame] ∧
      final.connection = [snapshotFrame, quotingFrame]))
    (by decide +kernel)
  obtain ⟨subs, seen, delivered, connection⟩ := of_decide_eq_true holds
  refine ⟨history, final, run, labels, fun caught => ?_⟩
  obtain ⟨viewer, found, written⟩ := Option.map_eq_some_iff.mp seen
  have state := (caught.viewers 1 (by simp [subs]) viewer found).state
    ⟨snapshotFrame, by simp [connection], by decide +kernel⟩
  rw [written, delivered] at state
  exact absurd state (by decide +kernel)

end Runs

end Barycenter.Global
