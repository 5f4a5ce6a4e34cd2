import Barycenter.Control.HealthRecords

/-!
# The verdict is the fold of the observations that count

An observation counts when its number is above every number delivered before it.
As long as a transaction that read no row finds none when it writes, the stored
row and the events are those of the observations that count.  Two transactions
that both read no row end in the order of their writings, whatever their
numbers.

Observations are listed newest first.
-/

namespace Barycenter.Control

open Store (Dialect)
open Records

/-! ## What should be stored -/

/-- The verdict after some observations: the newest of them that completes a
run up to its threshold decides. -/
def verdictOf : List ProbeResult → HealthState
  | [] => .unknown
  | newest :: older =>
      if newest.ok = false ∧ newest.failN ≤ headRun ProbeResult.ok (newest :: older) then
        .unhealthy
      else if newest.ok = true ∧ newest.riseN ≤ headRun ProbeResult.ok (newest :: older) then
        .healthy
      else verdictOf older

/-- One flip for every observation that changes the verdict. -/
def flipsOf : List ProbeResult → List (HealthState × Option String)
  | [] => []
  | newest :: older =>
      if verdictOf (newest :: older) = verdictOf older then flipsOf older
      else (verdictOf (newest :: older), newest.reason) :: flipsOf older

/-- The observation that an event of a run delivers to its end, if any. -/
def deliveredBy (event : Event HealthDb RecordStep) : Option ProbeResult :=
  match event.label with
  | .read _ result =>
      if result.seq ≤ prevSeq (event.before.rows.get? result.key) then some result else none
  | .write tx _ => (event.before.running.get? tx).map Recording.result
  | .fail _ => none

def deliveredTo (key : String) (history : List (Event HealthDb RecordStep)) : List ProbeResult :=
  (history.filterMap deliveredBy).reverse.filter fun result => result.key = key

def acceptedFor (key : String) (history : List (Event HealthDb RecordStep)) :
    List ProbeResult :=
  records ProbeResult.seq (deliveredTo key history)

def RowFolds (accepted : List ProbeResult) (row : Option HealthVerdict) : Prop :=
  match accepted with
  | [] => row = none
  | newest :: older => ∃ stored, row = some stored ∧
      stored.probeStartSeq = newest.seq ∧
      stored.lastOk = newest.ok ∧
      stored.consecutive = headRun ProbeResult.ok (newest :: older) ∧
      stored.state = verdictOf (newest :: older) ∧
      stored.detail = newest.reason

/-- The flips that are told of a backend, newest first. -/
def toldOf (key : String) (db : HealthDb) : List (HealthState × Option String) :=
  (db.events.filter fun event => event.backendKey = key).reverse.map fun event =>
    (event.state, event.detail)

/-- The stored state, counter and events of a backend are those of the
observations that count. -/
structure Folded (key : String) (history : List (Event HealthDb RecordStep)) (db : HealthDb) :
    Prop where
  row : RowFolds (acceptedFor key history) (db.rows.get? key)
  events : toldOf key db = flipsOf (acceptedFor key history)

/-- A transaction that read no row finds none when it writes. -/
def FirstStands (event : Event HealthDb RecordStep) : Prop :=
  match event.label with
  | .write tx _ => ∀ recording ∈ event.before.running.get? tx,
      recording.row = none → event.before.rows.get? recording.result.key = none
  | _ => True

instance : DecidablePred FirstStands
  | ⟨before, .write tx _, _⟩ =>
      inferInstanceAs (Decidable (∀ recording ∈ before.running.get? tx,
        recording.row = none → before.rows.get? recording.result.key = none))
  | ⟨_, .read _ _, _⟩ => .isTrue trivial
  | ⟨_, .fail _, _⟩ => .isTrue trivial

/-! ## One recording -/

section

variable {accepted : List ProbeResult} {recording : Recording}

theorem RowFolds.prevSeq_eq {row : Option HealthVerdict} {arrived : List ProbeResult}
    (folds : RowFolds (records ProbeResult.seq arrived) row) :
    prevSeq row = height ProbeResult.seq arrived := by
  cases counted : records ProbeResult.seq arrived with
  | nil =>
      rw [counted] at folds
      rw [height_of_records counted]
      simp only [RowFolds] at folds
      simp [folds, prevSeq]
  | cons newest older =>
      rw [counted] at folds
      obtain ⟨stored, rfl, sameSeq, -⟩ := folds
      rw [height_cons_records counted]
      exact sameSeq

theorem RowFolds.prevState_eq {row : Option HealthVerdict} (folds : RowFolds accepted row) :
    prevState row = verdictOf accepted := by
  cases accepted with
  | nil =>
      simp only [RowFolds] at folds
      simp [folds, prevState, verdictOf]
  | cons newest older =>
      obtain ⟨stored, rfl, -, -, -, state, -⟩ := folds
      exact state

theorem RowFolds.streak_eq (folds : RowFolds accepted recording.row) :
    recording.streak = headRun ProbeResult.ok (recording.result :: accepted) := by
  cases accepted with
  | nil =>
      simp only [RowFolds] at folds
      rw [headRun_single]
      simp [Recording.streak, folds]
  | cons newest older =>
      obtain ⟨stored, row, -, lastOk, counted, -⟩ := folds
      rw [headRun_cons]
      simp [Recording.streak, row, lastOk, counted]

theorem RowFolds.next_eq (folds : RowFolds accepted recording.row) :
    recording.next = verdictOf (recording.result :: accepted) := by
  have state := folds.prevState_eq
  have streak := folds.streak_eq
  simp only [Recording.next, verdictOf, state, streak]
  cases result : recording.result.ok <;> cases verdict : verdictOf accepted <;> simp

theorem RowFolds.written (folds : RowFolds accepted recording.row) (now : Nat) :
    RowFolds (recording.result :: accepted) (some (recording.written now)) :=
  ⟨_, rfl, rfl, rfl, folds.streak_eq, folds.next_eq, rfl⟩

end

/-! ## The observations of a longer history -/

section

variable {key : String} {past : List (Event HealthDb RecordStep)}
  {event : Event HealthDb RecordStep}

theorem acceptedFor_silent (silent : deliveredBy event = none) :
    acceptedFor key (past ++ [event]) = acceptedFor key past := by
  simp [acceptedFor, deliveredTo, silent]

theorem acceptedFor_other {result : ProbeResult} (delivered : deliveredBy event = some result)
    (other : result.key ≠ key) : acceptedFor key (past ++ [event]) = acceptedFor key past := by
  simp [acceptedFor, deliveredTo, delivered, other]

theorem acceptedFor_own {result : ProbeResult} (delivered : deliveredBy event = some result) :
    acceptedFor result.key (past ++ [event]) =
      if height ProbeResult.seq (deliveredTo result.key past) < result.seq then
        result :: acceptedFor result.key past
      else acceptedFor result.key past := by
  rw [acceptedFor, acceptedFor, ← records_cons]
  simp [deliveredTo, delivered]

end

/-! ## Runs -/

/-- What holds after a run in which every transaction that read no row found
none when it wrote. -/
structure Tracked (past : List (Event HealthDb RecordStep)) (db : HealthDb) : Prop where
  folded : ∀ key, Folded key past db
  locked : ∀ tx recording, db.running.get? tx = some recording → ∀ row,
    recording.row = some row → db.rows.get? recording.result.key = some row
  above : ∀ tx recording, db.running.get? tx = some recording →
    prevSeq recording.row < recording.result.seq

theorem tracked_start : Tracked [] {} :=
  ⟨fun _ => ⟨rfl, rfl⟩, by simp, by simp⟩

variable {past : List (Event HealthDb RecordStep)} {db : HealthDb}

theorem Tracked.silent {next : HealthDb}
    {event : Event HealthDb RecordStep} (tracked : Tracked past db)
    (accepted : ∀ key, acceptedFor key (past ++ [event]) = acceptedFor key past)
    (rows : next.rows = db.rows) (events : next.events = db.events) :
    ∀ key, Folded key (past ++ [event]) next := by
  intro key
  obtain ⟨row, told⟩ := tracked.folded key
  refine ⟨?_, ?_⟩
  · rw [accepted, rows]
    exact row
  · rw [accepted, ← told, toldOf, toldOf, events]

variable {dialect : Dialect} {tx : Nat} {before after : HealthDb}

/-- A transaction that reads leaves the rows alone: its observation is dropped,
or waits to be written. -/
theorem Tracked.read {result : ProbeResult} (tracked : Tracked past before)
    (step : before.Step dialect (.read tx result) after) :
    Tracked (past ++ [⟨before, .read tx result, after⟩]) after := by
  simp only [HealthDb.Step, HealthDb.step?] at step
  split at step
  · cases step
  · by_cases stale : result.seq ≤ prevSeq (before.rows.get? result.key)
    · simp only [if_pos stale, Option.some.injEq] at step
      subst step
      have delivered : deliveredBy ⟨before, .read tx result, before⟩ = some result := by
        simp [deliveredBy, stale]
      have unchanged : ∀ key, acceptedFor key (past ++ [⟨before, .read tx result, before⟩]) =
          acceptedFor key past := by
        intro key
        by_cases own : result.key = key
        · subst own
          have low := (tracked.folded result.key).row.prevSeq_eq
          rw [acceptedFor_own delivered, if_neg (by omega)]
        · exact acceptedFor_other delivered own
      exact ⟨tracked.silent unchanged rfl rfl, tracked.locked, tracked.above⟩
    · simp only [if_neg stale, Option.some.injEq] at step
      subst step
      have silent : ∀ after, deliveredBy ⟨before, .read tx result, after⟩ = none := by
        simp [deliveredBy, stale]
      refine ⟨tracked.silent (fun key => acceptedFor_silent (silent _)) rfl rfl, ?_, ?_⟩
      · intro other recording found
        simp only [OrderedMap.get?_set] at found
        split at found
        · cases found
          exact fun row read => read
        · exact tracked.locked other recording found
      · intro other recording found
        simp only [OrderedMap.get?_set] at found
        split at found
        · cases found
          exact Nat.lt_of_not_le stale
        · exact tracked.above other recording found

theorem not_blocked {other : Nat} {key : String}
    {recording : Recording} {row : HealthVerdict} (clear : db.waits dialect tx key = false)
    (found : db.running.get? other = some recording) (different : other ≠ tx)
    (locks : recording.row = some row) : recording.result.key ≠ key := by
  have passes : recording.blocks dialect key = false := by
    have member := OrderedMap.mem_entries_iff.mpr found
    simpa [different] using List.any_eq_false.mp clear _ member
  cases dialect with
  | postgres => simpa [Recording.blocks, locks] using passes
  | sqlite => simp [Recording.blocks] at passes

theorem toldOf_emit (key backendKey : String) (db : HealthDb) (state : HealthState)
    (detail : Option String) :
    toldOf key (db.emit backendKey state detail) =
      if backendKey = key then (state, detail) :: toldOf key db else toldOf key db := by
  by_cases own : backendKey = key <;> simp [toldOf, HealthDb.emit, own]

section

variable {db : HealthDb} {tx now : Nat} {recording : Recording}

@[simp] theorem HealthDb.store_rows :
    (db.store tx recording now).rows =
      db.rows.set recording.result.key (recording.written now) := by
  simp only [store]
  split <;> rfl

@[simp] theorem HealthDb.store_running :
    (db.store tx recording now).running = db.running.erase tx := by
  simp only [store]
  split <;> rfl

theorem toldOf_store (key : String) :
    toldOf key (db.store tx recording now) =
      if recording.result.key = key ∧ recording.next ≠ prevState recording.row then
        (recording.next, recording.result.reason) :: toldOf key db
      else toldOf key db := by
  by_cases same : recording.next = prevState recording.row
  · simp [HealthDb.store, same, toldOf]
  · by_cases own : recording.result.key = key <;>
      simp [HealthDb.store, same, own, toldOf_emit] <;> rfl

end

/-- A transaction that writes over the row it read, or over none, adds its
observation to those that count. -/
theorem Tracked.write {now : Nat} (tracked : Tracked past before)
    (step : before.Step dialect (.write tx now) after)
    (stands : FirstStands ⟨before, .write tx now, after⟩) :
    Tracked (past ++ [⟨before, .write tx now, after⟩]) after := by
  simp only [HealthDb.Step, HealthDb.step?] at step
  split at step
  · cases step
  · rename_i recording found
    split at step
    · cases step
    · rename_i clear
      cases step
      have current : before.rows.get? recording.result.key = recording.row := by
        cases read : recording.row with
        | none => exact stands recording found read
        | some row => exact tracked.locked tx recording found row read
      obtain ⟨folds, told⟩ := tracked.folded recording.result.key
      rw [current] at folds
      have delivered : deliveredBy ⟨before, .write tx now, before.store tx recording now⟩ =
          some recording.result := by
        simp [deliveredBy, found]
      have accepted : acceptedFor recording.result.key
          (past ++ [⟨before, .write tx now, before.store tx recording now⟩]) =
            recording.result :: acceptedFor recording.result.key past := by
        have above := tracked.above tx recording found
        rw [folds.prevSeq_eq] at above
        rw [acceptedFor_own delivered, if_pos above]
      refine ⟨?_, ?_, ?_⟩
      · intro key
        by_cases own : recording.result.key = key
        · subst own
          refine ⟨?_, ?_⟩
          · rw [accepted, HealthDb.store_rows, OrderedMap.get?_set_same]
            exact folds.written now
          · rw [accepted, toldOf_store, told, flipsOf, folds.next_eq, folds.prevState_eq]
            by_cases same : verdictOf (recording.result :: acceptedFor recording.result.key past) =
                verdictOf (acceptedFor recording.result.key past) <;> simp [same]
        · obtain ⟨row, events⟩ := tracked.folded key
          refine ⟨?_, ?_⟩
          · rw [acceptedFor_other delivered own, HealthDb.store_rows,
              OrderedMap.get?_set_other _ _ own]
            exact row
          · rw [acceptedFor_other delivered own, toldOf_store, if_neg (fun both => own both.1)]
            exact events
      · intro other waiting running row read
        rw [HealthDb.store_running, OrderedMap.get?_erase] at running
        split at running
        · cases running
        · rename_i different
          have elsewhere : waiting.result.key ≠ recording.result.key :=
            not_blocked (by simpa using clear) running (by tauto) read
          rw [HealthDb.store_rows, OrderedMap.get?_set_other _ _ (Ne.symm elsewhere)]
          exact tracked.locked other waiting running row read
      · intro other waiting running
        rw [HealthDb.store_running, OrderedMap.get?_erase] at running
        split at running
        · cases running
        · exact tracked.above other waiting running

theorem Tracked.fail (tracked : Tracked past before)
    (step : before.Step dialect (.fail tx) after) :
    Tracked (past ++ [⟨before, .fail tx, after⟩]) after := by
  simp only [HealthDb.Step, HealthDb.step?] at step
  split at step
  · cases step
    refine ⟨tracked.silent (fun key => acceptedFor_silent rfl) rfl rfl, ?_, ?_⟩
    · intro other recording running
      rw [OrderedMap.get?_erase] at running
      split at running
      · cases running
      · exact tracked.locked other recording running
    · intro other recording running
      rw [OrderedMap.get?_erase] at running
      split at running
      · cases running
      · exact tracked.above other recording running
  · cases step

theorem Tracked.step {event : Event HealthDb RecordStep} (tracked : Tracked past event.before)
    (step : event.before.Step dialect event.label event.after) (stands : FirstStands event) :
    Tracked (past ++ [event]) event.after := by
  obtain ⟨before, label, after⟩ := event
  cases label with
  | read tx result => exact tracked.read step
  | write tx now => exact tracked.write step stands
  | fail tx => exact tracked.fail step

theorem tracked_of_run {history : List (Event HealthDb RecordStep)}
    (run : Follows (HealthDb.Step dialect) {} history db)
    (stands : ∀ event ∈ history, FirstStands event) : Tracked history db :=
  run.with_past Tracked tracked_start
    fun _ event member step tracked => tracked.step step (stands event member)

/-! ## When a run reaches its threshold -/

variable {newest : ProbeResult} {older : List ProbeResult}

theorem verdictOf_unhealthy_iff (before : verdictOf older ≠ .unhealthy) :
    verdictOf (newest :: older) = .unhealthy ↔
      newest.ok = false ∧ newest.failN ≤ headRun ProbeResult.ok (newest :: older) := by
  rw [verdictOf]
  split
  · simp_all
  · split <;> simp_all

theorem verdictOf_healthy_iff (before : verdictOf older ≠ .healthy) :
    verdictOf (newest :: older) = .healthy ↔
      newest.ok = true ∧ newest.riseN ≤ headRun ProbeResult.ok (newest :: older) := by
  rw [verdictOf]
  split
  · simp_all
  · split <;> simp_all

/-- A run that is longer than one was shorter by one before its newest
observation. -/
theorem headRun_longer {length : Nat}
    (positive : 0 < length) (longer : length < headRun ProbeResult.ok (newest :: older)) :
    ∃ last rest, older = last :: rest ∧ last.ok = newest.ok ∧
      length ≤ headRun ProbeResult.ok (last :: rest) := by
  cases older with
  | nil =>
      rw [headRun_single] at longer
      omega
  | cons last rest =>
      rw [headRun_cons] at longer
      split at longer
      · rename_i same
        exact ⟨last, rest, rfl, same, by omega⟩
      · omega

/-- With thresholds that stay the same, a verdict falls at the very observation
with which the run reaches its threshold. -/
structure Crosses (rise fall : Nat) (accepted : List ProbeResult) : Prop where
  falls : ∀ newest older, accepted = newest :: older → verdictOf older ≠ .unhealthy →
    (verdictOf accepted = .unhealthy ↔
      newest.ok = false ∧ headRun ProbeResult.ok accepted = fall)
  rises : ∀ newest older, accepted = newest :: older → verdictOf older ≠ .healthy →
    (verdictOf accepted = .healthy ↔
      newest.ok = true ∧ headRun ProbeResult.ok accepted = rise)

theorem crosses {rise fall : Nat} {accepted : List ProbeResult} (someRise : 0 < rise)
    (someFall : 0 < fall)
    (constant : ∀ result ∈ accepted, result.riseN = rise ∧ result.failN = fall) :
    Crosses rise fall accepted := by
  refine ⟨?_, ?_⟩
  · rintro newest older rfl before
    have threshold := (constant newest List.mem_cons_self).2
    rw [verdictOf_unhealthy_iff before, threshold]
    refine and_congr_right fun failed => ⟨fun reached => ?_, fun reached => reached.ge⟩
    by_contra different
    obtain ⟨last, rest, rfl, same, long⟩ :=
      headRun_longer someFall (by omega : fall < headRun ProbeResult.ok (newest :: older))
    have lastFall := (constant last (by simp)).2
    refine before ?_
    rw [verdictOf, if_pos ⟨same.trans failed, by omega⟩]
  · rintro newest older rfl before
    have threshold := (constant newest List.mem_cons_self).1
    rw [verdictOf_healthy_iff before, threshold]
    refine and_congr_right fun succeeded => ⟨fun reached => ?_, fun reached => reached.ge⟩
    by_contra different
    obtain ⟨last, rest, rfl, same, long⟩ :=
      headRun_longer someRise (by omega : rise < headRun ProbeResult.ok (newest :: older))
    have lastRise := (constant last (by simp)).1
    refine before ?_
    rw [verdictOf, if_neg (by simp [same, succeeded]), if_pos ⟨same.trans succeeded, by omega⟩]

/-! ## Every run -/

/-- On every backend the stored state, last result and counter and the events
are the fold of the strictly increasing observations that count. -/
structure FoldsObservations (history : List (Event HealthDb RecordStep)) (db : HealthDb) :
    Prop where
  folded : ∀ key, Folded key history db
  increasing : ∀ key, (acceptedFor key history).Pairwise fun later earlier =>
    earlier.seq < later.seq
  crosses : ∀ key rise fall, 0 < rise → 0 < fall →
    (∀ result ∈ acceptedFor key history, result.riseN = rise ∧ result.failN = fall) →
      Crosses rise fall (acceptedFor key history)

theorem Tracked.foldsObservations {history : List (Event HealthDb RecordStep)}
    (tracked : Tracked history db) : FoldsObservations history db :=
  ⟨tracked.folded, fun _ => records_increasing _ _, fun _ _ _ => crosses⟩

theorem record_foldsObservations {dialect : Dialect} {db : HealthDb}
    {history : List (Event HealthDb RecordStep)}
    (run : Follows (HealthDb.Step dialect) {} history db)
    (stands : ∀ event ∈ history, FirstStands event) : FoldsObservations history db :=
  (tracked_of_run run stands).foldsObservations

def newerFailure : ProbeResult :=
  { key := "pay/a", seq := 8, reason := some "ECONNREFUSED", plan := some { fall := some 1 } }

def olderSuccess : ProbeResult :=
  { key := "pay/a", seq := 7, plan := some { fall := some 1 } }

theorem record_foldsObservations_late : ∃ history db,
    Follows (HealthDb.Step .postgres) {} history db ∧
      history.map Event.label = [.read 0 newerFailure, .write 0 3, .read 1 olderSuccess] ∧
      FoldsObservations history db := by
  obtain ⟨history, db, run, labels, check⟩ := @follows_of_attempt _ _
    (HealthDb.step? .postgres) {} [.read 0 newerFailure, .write 0 3, .read 1 olderSuccess]
    (fun reached => reached.1.all fun event => decide (FirstStands event))
    (by decide +kernel)
  have stands : ∀ event ∈ history, FirstStands event := fun event member =>
    of_decide_eq_true (List.all_eq_true.mp check event member)
  exact ⟨history, db, run, labels, record_foldsObservations run stands⟩

/-- Both transactions find no row, and the older observation is written last. -/
theorem record_overwrites_newer : ∃ history db,
    Follows (HealthDb.Step .postgres) {} history db ∧ ¬FoldsObservations history db := by
  obtain ⟨history, db, run, -, check⟩ := @follows_of_attempt _ _
    (HealthDb.step? .postgres) {}
    [.read 0 newerFailure, .read 1 olderSuccess, .write 0 3, .write 1 4]
    (fun reached =>
      decide (acceptedFor "pay/a" reached.1 = [newerFailure]) &&
        decide ((reached.2.rows.get? "pay/a").map HealthVerdict.probeStartSeq = some 7))
    (by decide +kernel)
  obtain ⟨accepted, row⟩ := Bool.and_eq_true_iff.mp check
  have counted := of_decide_eq_true accepted
  have stored := of_decide_eq_true row
  refine ⟨history, db, run, fun folds => ?_⟩
  have rowFolds := (folds.folded "pay/a").row
  rw [counted] at rowFolds
  obtain ⟨verdict, found, sameSeq, -⟩ := rowFolds
  simp [found, sameSeq, newerFailure] at stored

/-! ## SQLite -/

end Barycenter.Control
