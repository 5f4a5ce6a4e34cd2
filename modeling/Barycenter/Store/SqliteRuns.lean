import Barycenter.Foundation.SerialLog
import Barycenter.Store.SqliteStore

/-!
# Isolation and time in the SQLite store

The queue lets one request of a bundle at a time to the writer, and the end of a
transaction clears its time.  So what is committed is at every moment the work
of the committed units one after another, and a transaction sees its own work on
top of that.  The time of a transaction is one for both connections, though: a
reading that runs beside an open transaction is told the time at which that
transaction began.
-/

namespace Barycenter

namespace Sqlite

open World

variable {δ ρ : Type}

section Statements

/-- A statement and the time that `now()` has for it. -/
structure Change (δ ρ : Type) where
  statement : Statement δ ρ
  time : Nat

def Change.effect (change : Change δ ρ) (data : δ) : δ :=
  (change.statement.run data change.time).left data

/-- The committed units, and what the open transaction has done, as a database
with one transaction after the other would have them. -/
def noted (log : SerialLog (Change δ ρ)) (event : SqliteEvent δ ρ) : SerialLog (Change δ ρ) :=
  let before := event.before
  match event.label with
  | .write bundle call =>
      match before.next? bundle call, before.writing with
      | some ⟨.write statement, _, _⟩, none => log.single ⟨statement, before.now bundle⟩
      | _, _ => log
  | .beginImmediate _ _ granted => if granted ∧ before.writing.isNone then log.cleared else log
  | .statement bundle _ statement =>
      match before.working bundle with
      | some _ => log.added ⟨statement, before.now bundle⟩
      | none => log
  | .finish bundle call threw kept =>
      match before.inside? bundle call, before.working bundle with
      | some entry, some _ =>
          if entry.request.commits threw && kept then log.closed else log.cleared
      | _, _ => log
  | _ => log

def logOf (past : List (SqliteEvent δ ρ)) : SerialLog (Change δ ρ) := past.foldl noted {}

/-- What the event shows of the isolation and the time that PostgreSQL has. -/
structure Isolated (start : δ) (past : List (SqliteEvent δ ρ)) (event : SqliteEvent δ ρ) :
    Prop where
  committed : event.before.committed = (logOf past).value Change.effect start
  read : ∀ bundle statement, event.label = .read bundle statement →
    answer event.before event.label =
      some (statement.run ((logOf past).value Change.effect start) (event.before.now bundle))
  inside : ∀ bundle call statement, event.label = .statement bundle call statement →
    answer event.before event.label =
      some (statement.run ((logOf past).draft Change.effect start) (event.before.now bundle))
  constant : ∀ bundle call statement entry begun,
    event.label = .statement bundle call statement →
    event.before.call? bundle call = some entry → entry.stage = .inside begun →
      event.before.now bundle = begun
  readOnTime : ∀ bundle statement, event.label = .read bundle statement →
    event.before.clock ≤ event.before.now bundle
  writtenOnTime : ∀ bundle call entry, event.label = .write bundle call →
    event.before.call? bundle call = some entry → entry.asked ≤ event.before.now bundle
  undone : ∀ bundle call threw kept entry, event.label = .finish bundle call threw kept →
    event.before.call? bundle call = some entry →
      (entry.request.commits threw = false ∨ kept = false) →
        event.after.committed = event.before.committed
  ended : ∀ bundle call threw kept, event.label = .finish bundle call threw kept →
    event.after.working bundle = none ∧ event.after.txNow bundle = none
  clean : ∀ bundle call,
    (event.label = .write bundle call ∨ ∃ granted, event.label = .beginImmediate bundle call granted) →
      event.before.working bundle = none ∧ event.before.txNow bundle = none

/-- A reading outside a transaction does not run beside an open transaction of
its bundle that began at an earlier time. -/
def ReadsBeside (event : SqliteEvent δ ρ) : Prop :=
  ∀ bundle statement begun, event.label = .read bundle statement →
    event.before.txNow bundle = some begun → event.before.clock ≤ begun

/-- A transaction does not go on after a statement has taken it back. -/
def Attached (event : SqliteEvent δ ρ) : Prop :=
  ∀ bundle call statement, event.label = .statement bundle call statement →
    event.before.working bundle ≠ none

end Statements

/-! ## What holds in every state -/

/-- One request of the bundle has the writer, and its time is the time of the bundle. -/
structure Orderly (world : World δ ρ) (bundle : Nat) : Prop where
  holder : ∀ data, world.writing = some (bundle, data) →
    ∃ call entry begun, world.call? bundle call = some entry ∧ entry.stage = .inside begun
  timed : ∀ begun, world.txNow bundle = some begun →
    ∃ call entry, world.call? bundle call = some entry ∧ entry.stage = .inside begun
  first : ∀ call entry begun, world.call? bundle call = some entry →
    entry.stage = .inside begun →
      (world.queue bundle).head? = some call ∧ world.txNow bundle = some begun
  asked : ∀ call entry, world.call? bundle call = some entry → entry.asked ≤ world.clock

section Order

variable {world after : World δ ρ} {label : Step δ ρ} {bundle call : Nat}

theorem orderly_initial (start : δ) (clock : Nat) (bundle : Nat) :
    Orderly ({ committed := start, clock := clock } : World δ ρ) bundle :=
  { holder := nofun
    timed := nofun
    first := fun call entry begun found => by cases found
    asked := fun call entry found => by cases found }

/-- Nobody of the bundle is inside, and its writer is in no transaction. -/
structure Vacant (world : World δ ρ) (bundle : Nat) : Prop where
  outside : ∀ call entry begun, world.call? bundle call = some entry → entry.stage ≠ .inside begun
  writer : ∀ data, world.writing ≠ some (bundle, data)
  time : world.txNow bundle = none

theorem working_eq_none :
    world.working bundle = none ↔ ∀ data, world.writing ≠ some (bundle, data) := by
  cases writing : world.writing with
  | none => simp [World.working, writing]
  | some held =>
      obtain ⟨holder, data⟩ := held
      by_cases same : holder = bundle <;> simp [World.working, writing, same]

theorem Orderly.vacant (orderly : Orderly world bundle) {entry : Call δ ρ}
    (first : (world.queue bundle).head? = some call)
    (known : world.call? bundle call = some entry)
    (outside : ∀ begun, entry.stage ≠ .inside begun) : Vacant world bundle := by
  have nobody : ∀ second held begun, world.call? bundle second = some held →
      held.stage ≠ .inside begun := by
    intro second held begun found inside
    have head := (orderly.first second held begun found inside).1
    obtain rfl : call = second := Option.some.inj (first.symm.trans head)
    cases known.symm.trans found
    exact outside begun inside
  refine ⟨nobody, fun data writing => ?_, ?_⟩
  · obtain ⟨second, held, begun, found, inside⟩ := orderly.holder data writing
    exact nobody second held begun found inside
  · cases time : world.txNow bundle with
    | none => rfl
    | some begun =>
        obtain ⟨second, held, found, inside⟩ := orderly.timed begun time
        exact absurd inside (nobody second held begun found)

theorem Vacant.orderly (vacant : Vacant world bundle)
    (asked : ∀ call entry, world.call? bundle call = some entry → entry.asked ≤ world.clock) :
    Orderly world bundle :=
  { holder := fun data writing => absurd writing (vacant.writer data)
    timed := fun begun time => by
      rw [vacant.time] at time
      cases time
    first := fun call entry begun found inside => absurd inside (vacant.outside call entry begun found)
    asked := asked }

theorem Orderly.elsewhere (orderly : Orderly world bundle)
    (calls : ∀ call, after.call? bundle call = world.call? bundle call)
    (queue : after.queue bundle = world.queue bundle)
    (time : after.txNow bundle = world.txNow bundle)
    (writing : ∀ data, after.writing = some (bundle, data) →
      ∃ old, world.writing = some (bundle, old))
    (clock : world.clock ≤ after.clock) : Orderly after bundle := by
  refine ⟨fun data held => ?_, fun begun timed => ?_, ?_, ?_⟩
  · obtain ⟨old, here⟩ := writing data held
    simpa only [calls] using orderly.holder old here
  · rw [time] at timed
    simpa only [calls] using orderly.timed begun timed
  · intro call entry begun found inside
    rw [queue, time]
    exact orderly.first call entry begun (calls call ▸ found) inside
  · intro call entry found
    exact Nat.le_trans (orderly.asked call entry (calls call ▸ found)) clock

variable {holder : Nat} {data : δ}

theorem run_holder {statement : Statement δ ρ}
    (writing : (world.run bundle statement).writing = some (holder, data)) :
    ∃ old, world.writing = some (holder, old) := by
  unfold World.run at writing
  split at writing
  · next none => simp only [none, reduceCtorEq] at writing
  · next held old here =>
      split at writing
      · split at writing
        · obtain ⟨rfl, _⟩ := Prod.mk.inj (Option.some.inj writing)
          exact ⟨old, here⟩
        · exact ⟨data, writing⟩
        · cases writing
      · exact ⟨data, writing⟩

theorem rollback_holder (writing : (world.rollback bundle).writing = some (holder, data)) :
    world.writing = some (holder, data) ∧ holder ≠ bundle := by
  unfold World.rollback at writing
  split at writing
  · cases writing
  · next free =>
      refine ⟨writing, ?_⟩
      rintro rfl
      simp [World.working, writing] at free

theorem commit_holder {kept : Bool}
    (writing : (world.commit bundle kept).writing = some (holder, data)) :
    world.writing = some (holder, data) ∧ holder ≠ bundle := by
  unfold World.commit at writing
  split at writing
  · cases writing
  · exact rollback_holder writing

theorem Orderly.ended {middle : World δ ρ} {entry last : Call δ ρ} (orderly : Orderly world bundle)
    (known : world.call? bundle call = some entry)
    (calls : ∀ second, middle.call? bundle second = world.call? bundle second)
    (clock : middle.clock = world.clock)
    (outside : ∀ second held begun, second ≠ call → world.call? bundle second = some held →
      held.stage ≠ .inside begun)
    (writer : ∀ data, middle.writing ≠ some (bundle, data)) (time : middle.txNow bundle = none)
    (stage : last.stage = .ended) (asked : last.asked = entry.asked) :
    Orderly (middle.putCall bundle call last) bundle := by
  have vacant : Vacant (middle.putCall bundle call last) bundle := by
    refine ⟨?_, writer, by rw [txNow_putCall, time]⟩
    intro second held begun found
    rw [call?_putCall, calls] at found
    split at found
    · cases found
      rw [stage]
      exact nofun
    · next different =>
        exact outside second held begun (fun equal => different ⟨rfl, equal.symm⟩) found
  refine vacant.orderly fun second held found => ?_
  change held.asked ≤ middle.clock
  rw [clock]
  rw [call?_putCall, calls] at found
  split at found
  · cases found
    rw [asked]
    exact orderly.asked call entry known
  · exact orderly.asked second held found

theorem Orderly.step (acted : Acted world label after) (orderly : ∀ bundle, Orderly world bundle) :
    ∀ bundle, Orderly after bundle := by
  intro bundle
  have here := orderly bundle
  cases acted with
  | ticked onward =>
      exact here.elsewhere (fun _ => rfl) rfl rfl (fun data held => ⟨data, held⟩) onward
  | read reading | nested => exact here
  | @asked touched call request fresh =>
      by_cases same : bundle = touched
      · subst same
        have old {second : Nat} {entry : Call δ ρ}
            (found : world.call? bundle second = some entry) : call ≠ second := by
          rintro rfl
          rw [fresh] at found
          cases found
        refine ⟨fun data held => ?_, fun begun timed => ?_, ?_, ?_⟩
        · obtain ⟨second, entry, begun, found, inside⟩ := here.holder data held
          exact ⟨second, entry, begun, by simp [old found, found], inside⟩
        · simp only [txNow_putCall, txNow_withQueue] at timed
          obtain ⟨second, entry, found, inside⟩ := here.timed begun timed
          exact ⟨second, entry, by simp [old found, found], inside⟩
        · intro second entry begun found inside
          simp only [call?_putCall, call?_withQueue, true_and] at found
          split at found
          · cases found
            cases inside
          · obtain ⟨head, time⟩ := here.first second entry begun found inside
            simp only [queue_putCall, queue_withQueue, if_true, txNow_putCall, txNow_withQueue]
            refine ⟨?_, time⟩
            rw [List.head?_append, head]
            rfl
        · intro second entry found
          simp only [call?_putCall, call?_withQueue, true_and] at found
          split at found
          · cases found
            exact Nat.le_refl _
          · exact here.asked second entry found
      · exact here.elsewhere (by simp [same]) (by simp [same]) (by simp)
          (fun data held => ⟨data, held⟩) (Nat.le_refl _)
  | @wrote touched call asked statement next =>
      obtain ⟨head, known, _⟩ := next?_spec next
      have same : SameBundles world (world.run touched statement) := sameBundles_run statement
      by_cases equal : bundle = touched
      · subst equal
        have vacant := here.vacant head known nofun
        refine here.ended known (fun _ => same.call?) same.clock
          (fun second held begun _ => vacant.outside second held begun) (fun data held => ?_)
          (same.txNow.trans vacant.time) rfl rfl
        obtain ⟨old, writing⟩ := run_holder held
        exact vacant.writer old writing
      · exact here.elsewhere (by simp [equal, same.call?]) (by simp [same.queue])
          (by simp [same.txNow]) (fun data held => run_holder held) (Nat.le_of_eq same.clock.symm)
  | @begun touched call entry next free =>
      obtain ⟨head, known, waiting⟩ := next?_spec next
      by_cases equal : bundle = touched
      · subst equal
        have vacant := here.vacant head known fun begun inside => by
          rw [waiting] at inside
          cases inside
        refine ⟨fun data held => ?_, fun begun timed => ?_, ?_, ?_⟩
        · exact ⟨call, _, world.clock, by rw [call?_putCall, if_pos ⟨rfl, rfl⟩], rfl⟩
        · rw [txNow_putCall, txNow_withTxNow, if_pos rfl] at timed
          cases timed
          exact ⟨call, _, by rw [call?_putCall, if_pos ⟨rfl, rfl⟩], rfl⟩
        · intro second held begun found inside
          rw [call?_putCall, call?_withTxNow] at found
          split at found
          · next same =>
              cases found
              obtain rfl := Stage.inside.inj inside
              refine ⟨?_, by rw [txNow_putCall, txNow_withTxNow, if_pos rfl]⟩
              rw [queue_putCall, queue_withTxNow, ← same.2]
              exact head
          · exact absurd inside (vacant.outside second held begun found)
        · intro second held found
          rw [call?_putCall, call?_withTxNow] at found
          split at found
          · cases found
            exact here.asked call entry known
          · exact here.asked second held found
      · let middle : World δ ρ := { world with writing := some (touched, world.committed) }
        have same : SameBundles world middle := ⟨rfl, rfl⟩
        change Orderly ((middle.withTxNow touched (some world.clock)).putCall touched call
          { entry with stage := .inside world.clock }) bundle
        refine here.elsewhere (by simp [equal, same.call?]) (by simp [same.queue])
          (by simp [equal, same.txNow]) (fun data held => ?_) (Nat.le_refl _)
        obtain ⟨same, _⟩ := Prod.mk.inj (Option.some.inj held)
        exact absurd same.symm equal
  | @notBegun touched call granted entry next refused =>
      obtain ⟨head, known, waiting⟩ := next?_spec next
      by_cases equal : bundle = touched
      · subst equal
        have vacant := here.vacant head known fun begun inside => by
          rw [waiting] at inside
          cases inside
        exact here.ended known (fun _ => rfl) rfl
          (fun second held begun _ => vacant.outside second held begun) vacant.writer vacant.time
          rfl rfl
      · exact here.elsewhere (by simp [equal]) (by simp) (by simp)
          (fun data held => ⟨data, held⟩) (Nat.le_refl _)
  | @stated touched call statement entry inside =>
      have same : SameBundles world (world.run touched statement) := sameBundles_run statement
      exact here.elsewhere (fun _ => same.call?) same.queue same.txNow
        (fun data held => run_holder held) (Nat.le_of_eq same.clock.symm)
  | @finished touched call threw kept entry inside =>
      obtain ⟨known, begun, stage⟩ := inside?_spec inside
      let ended := if entry.request.commits threw then world.commit touched kept
        else world.rollback touched
      have same : SameBundles world ended := by
        dsimp only [ended]
        split
        · exact sameBundles_commit kept
        · exact sameBundles_rollback
      have others {holder : Nat} {data : δ} (held : ended.writing = some (holder, data)) :
          world.writing = some (holder, data) ∧ holder ≠ touched := by
        dsimp only [ended] at held
        split at held
        · exact commit_holder held
        · exact rollback_holder held
      change Orderly ((ended.withTxNow touched none).putCall touched call
        { entry with stage := .ended }) bundle
      by_cases equal : bundle = touched
      · subst equal
        refine here.ended known (fun _ => by rw [call?_withTxNow, same.call?]) same.clock ?_
          (fun data held => (others held).2 rfl) (by simp) rfl rfl
        intro second held other different found within
        have head := (here.first second held other found within).1
        have first := (here.first call entry begun known stage).1
        exact different (Option.some.inj (head.symm.trans first))
      · exact here.elsewhere (by simp [equal, same.call?]) (by simp [same.queue])
          (by simp [equal, same.txNow]) (fun data held => ⟨data, (others held).1⟩) (Nat.le_of_eq same.clock.symm)
  | @released touched call rest entry queue known ended =>
      by_cases equal : bundle = touched
      · subst equal
        have vacant := here.vacant (by rw [queue]; rfl) known fun begun inside => by
          rw [ended] at inside
          cases inside
        have after : Vacant (world.withQueue bundle rest) bundle := by
          refine ⟨fun second held begun found => ?_, vacant.writer, ?_⟩
          · exact vacant.outside second held begun (call?_withQueue ▸ found)
          · rw [txNow_withQueue, vacant.time]
        exact after.orderly fun second held found =>
          here.asked second held (call?_withQueue ▸ found)
      · exact here.elsewhere (by simp) (by simp [equal]) (by simp)
          (fun data held => ⟨data, held⟩) (Nat.le_refl _)

end Order

/-! ## One unit after the other -/

/-- What is committed and what the open transaction sees are those of the log. -/
structure Serial (start : δ) (log : SerialLog (Change δ ρ)) (world : World δ ρ) : Prop where
  committed : world.committed = log.value Change.effect start
  draft : ∀ holder data, world.writing = some (holder, data) →
    data = log.draft Change.effect start

section Units

variable {start : δ} {log : SerialLog (Change δ ρ)} {world after : World δ ρ} {bundle call : Nat}

theorem working_eq_some {data : δ} :
    world.working bundle = some data ↔ world.writing = some (bundle, data) := by
  cases writing : world.writing with
  | none => simp [World.working, writing]
  | some held =>
      obtain ⟨holder, other⟩ := held
      by_cases same : holder = bundle <;> simp [World.working, writing, same]

theorem Serial.stated (serial : Serial start log world) {statement : Statement δ ρ} {data : δ}
    (working : world.working bundle = some data) :
    Serial start (log.added ⟨statement, world.now bundle⟩) (world.run bundle statement) := by
  have writing := working_eq_some.mp working
  have draft := serial.draft bundle data writing
  simp only [World.run, writing, if_true]
  cases ran : statement.run data (world.now bundle) with
  | done reached rows =>
      refine ⟨by simp [serial.committed], fun holder seen held => ?_⟩
      obtain ⟨_, rfl⟩ := Prod.mk.inj (Option.some.inj held)
      simp [Change.effect, ← draft, ran, Ran.left]
  | failed =>
      refine ⟨by simp [serial.committed], fun holder seen held => ?_⟩
      obtain ⟨_, rfl⟩ := Prod.mk.inj (Option.some.inj (writing.symm.trans held))
      simp [Change.effect, ← draft, ran, Ran.left]
  | lost => exact ⟨by simp [serial.committed], nofun⟩

theorem Serial.wrote (serial : Serial start log world) {statement : Statement δ ρ}
    (writer : world.working bundle = none) :
    Serial start
      (match world.writing with
        | none => log.single ⟨statement, world.now bundle⟩
        | some _ => log)
      (world.run bundle statement) := by
  cases writing : world.writing with
  | none =>
      refine ⟨?_, fun holder data held => ?_⟩
      · simp [World.run, writing, Change.effect, ← serial.committed]
      · simp [World.run, writing] at held
  | some held =>
      obtain ⟨holder, data⟩ := held
      have different : holder ≠ bundle := by
        rintro rfl
        exact working_eq_none.mp writer data writing
      simp only [World.run, writing, if_neg different]
      exact serial

theorem Serial.rolledBack (serial : Serial start log world) {data : δ}
    (working : world.working bundle = some data) :
    Serial start log.cleared (world.rollback bundle) := by
  simp only [World.rollback, working, Option.isSome_some, if_true]
  exact ⟨serial.committed, nofun⟩

theorem rollback_free (free : world.working bundle = none) : world.rollback bundle = world := by
  simp [World.rollback, free]

theorem commit_free {kept : Bool} (free : world.working bundle = none) :
    world.commit bundle kept = world := by
  unfold World.commit
  rw [free]
  exact rollback_free free

theorem Serial.committedUnit (serial : Serial start log world) {data : δ} {kept : Bool}
    (working : world.working bundle = some data) :
    Serial start (if kept then log.closed else log.cleared) (world.commit bundle kept) := by
  cases kept with
  | true =>
      simp only [World.commit, working, if_true]
      refine ⟨?_, nofun⟩
      simpa using serial.draft bundle data (working_eq_some.mp working)
  | false =>
      simp only [World.commit, working]
      exact serial.rolledBack working

theorem Serial.step {label : Step δ ρ} (acted : Acted world label after)
    (orderly : ∀ bundle, Orderly world bundle) (attached : Attached ⟨world, label, after⟩)
    (serial : Serial start log world) : Serial start (noted log ⟨world, label, after⟩) after := by
  cases acted with
  | ticked onward | asked fresh | released queue known ended =>
      exact ⟨serial.committed, serial.draft⟩
  | read reading | nested => exact serial
  | @wrote bundle call asked statement next =>
      obtain ⟨head, known, _⟩ := next?_spec next
      have vacant := (orderly bundle).vacant head known nofun
      have done := @Serial.wrote _ _ start log world bundle serial statement
        (working_eq_none.mpr vacant.writer)
      simp only [noted, next]
      cases writing : world.writing with
      | none | some held =>
          rw [writing] at done
          exact ⟨done.committed, done.draft⟩
  | @begun bundle call entry next free =>
      refine ⟨?_, fun holder data held => ?_⟩
      · simp only [noted, free]
        exact serial.committed
      · obtain ⟨_, rfl⟩ := Prod.mk.inj (Option.some.inj held)
        simp only [noted, free]
        exact serial.committed
  | @notBegun bundle call granted entry next refused =>
      simp only [noted, Option.isNone_iff_eq_none, if_neg refused]
      exact ⟨serial.committed, serial.draft⟩
  | @stated bundle call statement entry inside =>
      cases working : world.working bundle with
      | none => exact absurd working (attached bundle call statement rfl)
      | some data =>
          simp only [noted, working]
          exact serial.stated working
  | @finished bundle call threw kept entry inside =>
      cases working : world.working bundle with
      | none =>
          simp only [noted, inside, working, commit_free working, rollback_free working, ite_self]
          exact ⟨serial.committed, serial.draft⟩
      | some data =>
          simp only [noted, inside, working]
          cases entry.request.commits threw with
          | true =>
              have done := @Serial.committedUnit _ _ start log world bundle serial data kept working
              simp only [Bool.true_and, if_true]
              exact ⟨done.committed, done.draft⟩
          | false =>
              have done := serial.rolledBack working
              simp only [Bool.false_and, if_false, Bool.false_eq_true]
              exact ⟨done.committed, done.draft⟩

end Units

/-! ## Runs -/

section Runs

variable {start : δ} {clock : Nat} {history : List (SqliteEvent δ ρ)} {final : World δ ρ}

theorem serial_run (run : SqliteRun start clock history final)
    (attached : ∀ event ∈ history, Attached event) :
    (∀ bundle, Orderly final bundle) ∧ Serial start (logOf history) final := by
  refine run.with_past
    (fun past world => (∀ bundle, Orderly world bundle) ∧ Serial start (logOf past) world)
    ⟨orderly_initial start clock, ⟨rfl, nofun⟩⟩ ?_
  rintro past ⟨before, label, after⟩ member stepped ⟨orderly, serial⟩
  have acted := act_acted stepped
  refine ⟨Orderly.step acted orderly, ?_⟩
  rw [logOf, List.foldl_append]
  exact serial.step acted orderly (attached _ member)

theorem finish_clears {world after : World δ ρ} {bundle call : Nat} {threw kept : Bool}
    (acted : Acted world (.finish bundle call threw kept) after) :
    after.working bundle = none ∧ after.txNow bundle = none := by
  cases acted with
  | @finished _ _ _ _ entry inside =>
      refine ⟨working_eq_none.mpr fun data held => ?_, by simp⟩
      change (if entry.request.commits threw then world.commit bundle kept
        else world.rollback bundle).writing = some (bundle, data) at held
      split at held
      · exact (commit_holder held).2 rfl
      · exact (rollback_holder held).2 rfl

theorem committed_rollback {world : World δ ρ} {bundle : Nat} :
    (world.rollback bundle).committed = world.committed := by
  unfold World.rollback
  split <;> rfl

/-- A transaction that is not to be committed, or whose `COMMIT` fails, leaves
no change. -/
theorem finish_undone {world after : World δ ρ} {bundle call : Nat} {threw kept : Bool}
    {entry : Call δ ρ} (acted : Acted world (.finish bundle call threw kept) after)
    (known : world.call? bundle call = some entry)
    (undone : entry.request.commits threw = false ∨ kept = false) :
    after.committed = world.committed := by
  cases acted with
  | finished inside =>
      cases known.symm.trans (inside?_spec inside).1
      change (if entry.request.commits threw then world.commit bundle kept
        else world.rollback bundle).committed = world.committed
      rcases undone with thrown | failed
      · rw [thrown]
        exact committed_rollback
      · subst failed
        split
        · unfold World.commit
          split
          · next same => cases same
          · exact committed_rollback
        · exact committed_rollback

/-- While no transaction goes on after a statement has taken it back, a run has
the isolation and the time of PostgreSQL exactly when no reading runs beside a
transaction of its bundle that began earlier. -/
theorem isolated_iff (run : SqliteRun start clock history final)
    (attached : ∀ event ∈ history, Attached event) :
    (∀ past event later, history = past ++ event :: later → Isolated start past event) ↔
      ∀ event ∈ history, ReadsBeside event := by
  constructor
  · intro isolated event member bundle statement begun label time
    obtain ⟨past, later, shape⟩ := List.append_of_mem member
    have onTime := (isolated past event later shape).readOnTime bundle statement label
    rwa [now, time, Option.getD_some] at onTime
  · intro beside past event later shape
    subst shape
    have member : event ∈ past ++ event :: later := List.mem_append_right _ List.mem_cons_self
    obtain ⟨before, label, after⟩ := event
    obtain ⟨middle, reached, onward⟩ := run.split
    obtain ⟨orderly, serial⟩ := serial_run reached fun event among =>
      attached event (List.mem_append_left _ among)
    cases onward with
    | cons stepped _ =>
        have acted := act_acted stepped
        constructor
        case committed => exact serial.committed
        case read =>
          rintro bundle statement rfl
          simp only [answer, serial.committed]
        case inside =>
          rintro bundle call statement rfl
          cases working : before.working bundle with
          | none => exact absurd working (attached _ member bundle call statement rfl)
          | some data =>
              have draft := serial.draft bundle data (working_eq_some.mp working)
              simp only [answer, working, Option.getD_some, draft]
        case constant =>
          rintro bundle call statement entry begun rfl known inside
          rw [now, ((orderly bundle).first call entry begun known inside).2, Option.getD_some]
        case readOnTime =>
          rintro bundle statement rfl
          cases time : before.txNow bundle with
          | none =>
              exact Nat.le_of_eq (by rw [now, time, Option.getD_none])
          | some begun =>
              rw [now, time, Option.getD_some]
              exact beside _ member bundle statement begun rfl time
        case writtenOnTime =>
          rintro bundle call entry rfl known
          cases acted with
          | wrote next =>
              obtain ⟨head, waiting, _⟩ := next?_spec next
              have vacant := (orderly bundle).vacant head waiting nofun
              rw [now, vacant.time, Option.getD_none]
              exact (orderly bundle).asked call entry known
        case undone =>
          rintro bundle call threw kept entry rfl known undone
          exact finish_undone acted known undone
        case ended =>
          rintro bundle call threw kept rfl
          exact finish_clears acted
        case clean =>
          have clean {bundle call : Nat} {entry : Call δ ρ}
              (next : before.next? bundle call = some entry) :
              before.working bundle = none ∧ before.txNow bundle = none := by
            obtain ⟨head, known, waiting⟩ := next?_spec next
            have vacant := (orderly bundle).vacant head known fun begun inside => by
              rw [waiting] at inside
              cases inside
            exact ⟨working_eq_none.mpr vacant.writer, vacant.time⟩
          rintro bundle call (rfl | ⟨granted, rfl⟩)
          · cases acted with
            | wrote next => exact clean next
          · cases acted with
            | begun next _ | notBegun next _ => exact clean next

end Runs

/-! ## Concrete runs -/

/-- `SELECT now()`: the data are a number that nobody reads here. -/
def selectNow : Statement Nat Nat :=
  { text := "SELECT now()"
    run := fun data time => .done data time
    reads := fun _ _ _ => rfl }

def increment : Statement Nat Nat :=
  { text := "UPDATE counter SET value = value + 1"
    run := fun data _ => .done (data + 1) 0
    reads := fun reading => absurd reading (by decide) }

def attached (event : SqliteEvent Nat Nat) : Bool :=
  match event.label with
  | .statement bundle _ _ => (event.before.working bundle).isSome
  | _ => true

theorem attached_sound {event : SqliteEvent Nat Nat} (passed : attached event = true) :
    Attached event := by
  intro bundle call statement label lost
  simp [attached, label, lost] at passed

/-- A transaction that is committed, and a reading after it. -/
def readsAfter : List (Step Nat Nat) :=
  [.ask 0 0 .tx, .beginImmediate 0 0 true, .statement 0 0 increment, .tick 5,
    .finish 0 0 false true, .release 0 0, .read 0 selectNow]

/-- A reading five units of time after the beginning of an open transaction. -/
def readsBeside : List (Step Nat Nat) :=
  [.ask 0 0 .tx, .beginImmediate 0 0 true, .tick 5, .read 0 selectNow]

theorem isolated_iff_readsAfter :
    ∃ history final, history.map Event.label = readsAfter ∧ SqliteRun 0 0 history final ∧
      final.committed = 1 ∧
      ((∀ past event later, history = past ++ event :: later → Isolated 0 past event) ↔
        ∀ event ∈ history, ReadsBeside event) := by
  obtain ⟨history, final, run, walked, passed⟩ :=
    @follows_of_attempt _ _ act { committed := 0, clock := 0 } readsAfter
      (fun (history, final) => history.all attached && decide (final.committed = 1))
      (by decide +kernel)
  obtain ⟨steady, committed⟩ := Bool.and_eq_true_iff.mp passed
  exact ⟨history, final, walked, run, of_decide_eq_true committed,
    isolated_iff run fun event member => attached_sound (List.all_eq_true.mp steady event member)⟩

/-- The reading is told the time at which the transaction of somebody else began. -/
theorem read_beside_is_early :
    ∃ history final, SqliteRun 0 0 history final ∧ (∀ event ∈ history, Attached event) ∧
      ∃ past event later, history = past ++ event :: later ∧
        answer event.before event.label = some (.done 0 0) ∧ event.before.clock = 5 ∧
        ¬ Isolated 0 past event := by
  obtain ⟨history, final, run, walked, passed⟩ :=
    @follows_of_attempt _ _ act { committed := 0, clock := 0 } readsBeside
      (fun (history, _) => history.all attached && history.any fun event =>
        decide (answer event.before event.label = some (.done 0 0)) &&
          (decide (event.before.clock = 5) &&
            match event.label with
            | .read bundle _ => decide (event.before.now bundle = 0)
            | _ => false))
      (by decide +kernel)
  obtain ⟨steady, seen⟩ := Bool.and_eq_true_iff.mp passed
  obtain ⟨event, member, shown⟩ := List.any_eq_true.mp seen
  obtain ⟨answered, shown⟩ := Bool.and_eq_true_iff.mp shown
  obtain ⟨clock, early⟩ := Bool.and_eq_true_iff.mp shown
  obtain ⟨past, later, shape⟩ := List.append_of_mem member
  refine ⟨history, final, run,
    fun event member => attached_sound (List.all_eq_true.mp steady event member),
    past, event, later, shape, of_decide_eq_true answered, of_decide_eq_true clock,
    fun isolated => ?_⟩
  split at early
  · next bundle statement label =>
      have onTime := isolated.readOnTime bundle statement label
      rw [of_decide_eq_true early, of_decide_eq_true clock] at onTime
      cases onTime
  · cases early

end Sqlite

end Barycenter
