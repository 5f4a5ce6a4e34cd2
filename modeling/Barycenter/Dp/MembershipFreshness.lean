import Barycenter.Dp.AgentRecords
import Barycenter.Dp.CoordinateSafety
import Barycenter.Dp.DriverRuns
import Barycenter.Dp.Fencing
import Barycenter.Dp.VerdictFinality

/-!
# The slots that were pushed last

A membership call first moves the revision of its plane, and pushes its slots
afterwards.  Two calls may push in the other order than they were accepted, and
a late retry is answered from the cache and pushes its old slots again.  When no
push at the active epoch happens unless a call that stands at the revision of
the plane is about to push, the newest accepted slots are the ones pushed last.
-/

namespace Barycenter.Dp

open Outcome

/-! ## Where cached health answers come from -/

def HealthKept (s next : AgentState) : Prop :=
  ∀ t seen, next.completed.get? (key t .health) = some seen →
    s.completed.get? (key t .health) = some seen

variable {s next : AgentState}

theorem HealthKept.of_same (same : next.completed = s.completed) :
    HealthKept s next :=
  fun _ _ found => same ▸ found

theorem HealthKept.trans {middle : AgentState} (first : HealthKept s middle)
    (second : HealthKept middle next) : HealthKept s next :=
  fun t seen found => first t seen (second t seen found)

variable {op : OperationTuple}

theorem record_healthKept (taken : AgentState) {step : Step} {result : PlaneState}
    (same : taken.completed = s.completed) (other : step ≠ .health) :
    HealthKept s (record taken op step result) := by
  intro t seen found
  simp only [record, OrderedMap.get?_set] at found
  split at found
  · rename_i here
    exact absurd (key_step here) other
  · exact same ▸ found

namespace Agent

variable {s next : AgentState} {op : OperationTuple} {ack : PlaneAck}

theorem reserve_healthKept (reserved : reserve op s = .ok (ack, next)) : HealthKept s next := by
  obtain ⟨-, -, cases⟩ := reserve_ok reserved
  rcases cases with ⟨-, rfl⟩ | ⟨-, -, slot, taken, acquired, rfl⟩
  · exact .of_same rfl
  · exact record_healthKept _ (acquire_claims acquired).1 nofun

theorem stage_healthKept (staged : stage op s = .ok (ack, next)) : HealthKept s next := by
  obtain ⟨-, -, cases⟩ := stage_ok staged
  rcases cases with ⟨-, rfl⟩ | ⟨-, -, slot, taken, acquired, rfl⟩
  · exact .of_same rfl
  · exact record_healthKept _ (acquire_claims acquired).1 nofun

theorem commit_healthKept {evidence : ActivationEvidence}
    (committed : commit op evidence s = .ok (ack, next)) : HealthKept s next := by
  obtain ⟨-, -, cases⟩ := commit_ok committed
  rcases cases with ⟨-, rfl⟩ | ⟨-, -, -, rfl⟩ | ⟨-, -, -, -, rfl⟩
  · exact .of_same rfl
  · exact record_healthKept (s.raise op.leaderToken) rfl nofun
  · exact record_healthKept _ rfl nofun

end Agent

variable {o : AgentOp}

theorem mutate_healthKept {reply : o.Reply}
    (mutated : o.mutate s = .ok (reply, next)) (other : ∀ op, o ≠ .applyHealth op) :
    HealthKept s next := by
  cases o with
  | reserveAll op opening =>
      obtain ⟨tuples, swept, taken, -, -, -, -, sweeping, walked, rfl⟩ :=
        Agent.reserveAll_ok mutated
      have kept : HealthKept swept taken := by
        refine traverse_preserves (HealthKept swept) ?_ (.of_same rfl) walked
        intro tuple _ current ack later before step
        exact before.trans (Agent.reserve_healthKept step)
      obtain ⟨journal, opened⟩ := Agent.openJournal_only op opening
        { taken with activeOperation := some (Agent.holderWith op tuples) }
      rw [opened]
      exact HealthKept.trans (.of_same (sweepOrphan_completed sweeping)) kept
  | reserve op => exact Agent.reserve_healthKept mutated
  | stage op => exact Agent.stage_healthKept mutated
  | commit op evidence => exact Agent.commit_healthKept mutated
  | abort op =>
      obtain ⟨_, _, _, _, -, rfl⟩ := Agent.finalize_only (Agent.abort_ok mutated)
      exact .of_same rfl
  | release op =>
      obtain ⟨-, cases⟩ := Agent.release_ok mutated
      rcases cases with ⟨-, rfl⟩ | ⟨-, rfl⟩
      · exact .of_same rfl
      · intro t seen found
        simp only [Agent.forget, List.foldl_cons, List.foldl_nil, OrderedMap.get?_erase]
          at found
        repeat (split at found; cases found)
        exact found
  | fail op =>
      obtain ⟨_, _, _, _, -, rfl⟩ := Agent.finalize_only (Agent.fail_ok mutated)
      exact .of_same rfl
  | applyHealth op => exact absurd rfl (other op)
  | _ => exact .of_same (mutate_clerical mutated rfl).completed

/-- The coordinate of a plane is not behind the given one. -/
def Reached (s : AgentState) (plane : Plane) (target : Coordinate) : Prop :=
  target.activationEpoch < (s.planes.get plane).activationEpoch ∨
    target.activationEpoch = (s.planes.get plane).activationEpoch ∧
      target.membershipRevision ≤ (s.planes.get plane).membershipRevision

/-- What a health request was granted, its plane has reached. -/
def HealthReached (s : AgentState) : Prop :=
  ∀ t seen, s.completed.get? (key t .health) = some seen → seen.tuple = canonical t →
    Reached s t.plane t.target

def Unslotted (s : AgentState) : Prop :=
  ∀ plane, s.slot plane (s.planes.get plane).activationEpoch = none

theorem unslotted_initial : Unslotted initial := by
  intro plane
  cases plane <;> rfl

theorem SlotsFrom.unslotted (from_ : SlotsFrom s next)
    (unslotted : Unslotted s) {plane : Plane}
    (same : (next.planes.get plane).activationEpoch = (s.planes.get plane).activationEpoch) :
    next.slot plane (next.planes.get plane).activationEpoch = none := by
  cases found : next.slot plane (next.planes.get plane).activationEpoch with
  | none => rfl
  | some slot =>
      cases from_ plane _ slot found with
      | before old already sameOp =>
          rw [same, unslotted plane] at already
          cases already
      | claimed here at_ expected forward lower upper =>
          rw [same] at forward
          exact absurd forward (Nat.lt_irrefl _)

theorem moved_slot {evidence : ActivationEvidence} {slot : Reservation}
    (moves : Agent.Moves s op evidence slot) :
    (Agent.moved s op evidence).slot op.plane op.target.activationEpoch = none := by
  have owned : ownsSlot (Agent.place (s.raise op.leaderToken) op evidence) op = true :=
    ownsSlot_iff.mpr ⟨slot, moves.found, moves.owned⟩
  change (withoutOwnSlot (Agent.place (s.raise op.leaderToken) op evidence) op).slot
    op.plane op.target.activationEpoch = none
  simp only [withoutOwnSlot, owned, if_true]
  change ((Agent.place (s.raise op.leaderToken) op evidence).dropSlot op.plane
    op.target.activationEpoch).slot op.plane op.target.activationEpoch = none
  simp [AgentState.slot_dropSlot]

theorem unslotted_step {before after : AgentState}
    (step : AgentStep before o after) (unslotted : Unslotted before) : Unslotted after := by
  obtain ⟨reply, succeeded⟩ := step
  obtain ⟨changed, mutated, rfl, -⟩ := serial_ok succeeded
  have slots := mutate_slotsFrom mutated
  change Unslotted changed
  rcases mutate_ground mutated with ground | ⟨op, evidence, slot, -, moves, -, rfl⟩ |
    ⟨op, -, revises, -, rfl⟩
  · intro plane
    exact slots.unslotted unslotted (by rw [ground.planes])
  · intro plane
    by_cases here : op.plane = plane
    · subst here
      have entered : ((Agent.moved before op evidence).planes.get op.plane).activationEpoch =
          op.target.activationEpoch := by
        simp [Agent.moved, record, finish, Agent.place, OperationTuple.placed,
          OperationTuple.reached]
      rw [entered]
      exact moved_slot moves
    · refine slots.unslotted unslotted ?_
      simp [Agent.moved, record, finish, Agent.place, PerPlane.get_set_other _ _ here]
  · intro plane
    refine slots.unslotted unslotted ?_
    by_cases here : op.plane = plane
    · subst here
      simp [record, Agent.revised, OperationTuple.reached, revises.sameEpoch]
    · simp [record, PerPlane.get_set_other _ _ here]

theorem Reached.later {reply : o.Reply}
    (succeeded : serial o s = .ok (reply, next)) (unslotted : Unslotted s)
    {plane : Plane} {target : Coordinate} (reached : Reached s plane target) :
    Reached next plane target := by
  rcases serial_planes succeeded plane with same | ⟨op, evidence, slot, -, rfl, moves, placed⟩ |
    ⟨op, -, rfl, revises, changed⟩
  · simpa only [Reached, same] using reached
  · have ahead := serial_epochs succeeded op.plane
    have apart : (s.planes.get op.plane).activationEpoch ≠ op.target.activationEpoch := by
      intro here
      have empty := unslotted op.plane
      rw [here, moves.found] at empty
      cases empty
    simp only [Reached, placed, OperationTuple.placed, OperationTuple.reached] at reached ahead ⊢
    omega
  · have forward := revises.forward
    have same := revises.sameEpoch
    simp only [Reached, changed, Agent.revised, OperationTuple.reached] at reached ⊢
    omega

theorem healthReached_step {before after : AgentState}
    (step : AgentStep before o after) (unslotted : Unslotted before)
    (reached : HealthReached before) : HealthReached after := by
  obtain ⟨reply, succeeded⟩ := step
  obtain ⟨changed, mutated, rfl, -⟩ := serial_ok succeeded
  intro t seen found text
  have kept : before.completed.get? (key t .health) = some seen →
      Reached (prune changed) t.plane t.target :=
    fun old => (reached t seen old text).later succeeded unslotted
  have found := prune_completed found
  by_cases health : ∃ op, o = .applyHealth op
  · obtain ⟨op, rfl⟩ := health
    obtain ⟨-, -, cases⟩ := Agent.applyHealth_ok mutated
    rcases cases with ⟨-, rfl⟩ | ⟨-, revises, -, rfl⟩
    · exact kept found
    · simp only [record, OrderedMap.get?_set] at found
      split at found
      · rename_i here
        simp only [Option.some.injEq] at found
        subst found
        obtain ⟨-, plane, -, target⟩ := same_request here text
        refine .inr ?_
        simp [← plane, ← target, record, Agent.revised, OperationTuple.reached]
      · exact kept found
  · exact kept (mutate_healthKept mutated (fun op same => health ⟨op, same⟩) t seen found)

/-! ## Calls side by side -/

/-- One call of the membership operation of the driver. -/
structure MembershipCall where
  op : ApplyOperation
  plane : Plane
  slots : OrderedMap String (List String)

namespace MembershipCall

def driverOp (call : MembershipCall) : DriverOp :=
  .applyMembership call.op call.plane call.slots

/-- The call asks the plane to stand at the coordinate. -/
def AsksFor (call : MembershipCall) (plane : Plane) (target : Coordinate) : Prop :=
  call.plane = plane ∧
    (call.op.planes.get plane).map (fun goal => normalizeCoordinate goal.target) = some target

instance (call : MembershipCall) (plane : Plane) (target : Coordinate) :
    Decidable (call.AsksFor plane target) :=
  inferInstanceAs (Decidable (_ ∧ _))

theorem asksFor_tuple {call : MembershipCall} {tuple : OperationTuple}
    (told : tupleFor call.op call.plane = .ok tuple) :
    call.AsksFor call.plane tuple.target := by
  obtain ⟨goal, declared, rfl⟩ := tupleFor_ok.mp told
  exact ⟨rfl, by simp [declared]⟩

theorem AsksFor.unique {call : MembershipCall} {plane other : Plane}
    {target second : Coordinate} (first : call.AsksFor plane target)
    (again : call.AsksFor other second) : plane = other ∧ target = second := by
  obtain ⟨rfl, goal⟩ := first
  obtain ⟨rfl, same⟩ := again
  exact ⟨rfl, Option.some.inj (goal.symm.trans same)⟩

end MembershipCall

section Calls

variable {ι : Type}

abbrev CallHistory (ι : Type) := List (Event (ServicePool dataplane ι) (Deed dataplane ι))

def membershipPool (deployment : Deployment) (calls : ι → MembershipCall) (s : AgentState) :
    ServicePool dataplane ι :=
  { driverPool deployment fun thread => (calls thread).driverOp with state := s }

/-- Is the program about to ask the world for something? -/
def asking : Program Unit → Bool
  | .call _ _ => true
  | _ => false

def acceptance (event : Event (ServicePool dataplane ι) (Deed dataplane ι)) : Option ι :=
  match event.label with
  | .attempted thread op =>
      match serial op event.before.state with
      | .ok _ => some thread
      | .error _ => none
  | _ => none

def accepted (history : CallHistory ι) : List ι := history.filterMap acceptance

def pushAt (plane : Plane) (epoch : Nat)
    (event : Event (ServicePool dataplane ι) (Deed dataplane ι)) :
    Option (OrderedMap String (List String)) :=
  match event.label with
  | .asked _ (.pushMembership other numeral slots) =>
      if other = plane ∧ normalizeNumeric numeral = epoch then some slots else none
  | _ => none

/-- What was pushed for a plane at an epoch, in order. -/
def pushed (plane : Plane) (epoch : Nat) (history : CallHistory ι) :
    List (OrderedMap String (List String)) :=
  history.filterMap (pushAt plane epoch)

/-- An accepted call with the highest revision for a plane at an epoch. -/
structure Newest (calls : ι → MembershipCall) (history : CallHistory ι) (plane : Plane)
    (epoch : Nat) (thread : ι) (revision : Nat) : Prop where
  granted : thread ∈ accepted history
  asks : (calls thread).AsksFor plane
    { activationEpoch := epoch, membershipRevision := revision }
  highest : ∀ other ∈ accepted history, ∀ lower,
    (calls other).AsksFor plane { activationEpoch := epoch, membershipRevision := lower } →
      lower ≤ revision

/-- The slots that were pushed last are those of an accepted call with the
highest revision. -/
def PushedFresh (calls : ι → MembershipCall) (history : CallHistory ι) (plane : Plane)
    (epoch : Nat) : Prop :=
  ∀ thread ∈ accepted history, ∀ revision,
    (calls thread).AsksFor plane
        { activationEpoch := epoch, membershipRevision := revision } →
      ∃ newest highest, Newest calls history plane epoch newest highest ∧
        (pushed plane epoch history).getLast? = some (calls newest).slots

/-- Nothing is pushed for the epoch a plane stands at, unless a call that asks for
the coordinate of the plane is about to push. -/
def Heeds (calls : ι → MembershipCall)
    (event : Event (ServicePool dataplane ι) (Deed dataplane ι)) : Prop :=
  ∀ thread plane numeral slots,
    event.label = .asked thread (.pushMembership plane numeral slots) →
      normalizeNumeric numeral = (event.before.state.planes.get plane).activationEpoch →
        ∃ current, asking (event.before.threads current) = true ∧
          (calls current).AsksFor plane (event.before.state.planes.get plane).coordinate

inductive CallStage (call : MembershipCall) : Program Unit → Prop where
  | waiting (tuple : OperationTuple)
      (next : Except Thrown (AgentOp.applyHealth tuple).Reply → Program Unit)
      (told : tupleFor call.op call.plane = .ok tuple)
      (granted : ∀ reply, ∃ numeral rest,
        next (.ok reply) = .call (.pushMembership call.plane numeral call.slots) rest ∧
          normalizeNumeric numeral = tuple.target.activationEpoch ∧
          ∀ answer, ∃ result, rest answer = .done result)
      (refused : ∀ fault, ∃ result, next (.error fault) = .done result) :
      CallStage call (.act (.applyHealth tuple) next)
  | pushing (tuple : OperationTuple) (numeral : Numeral)
      (rest : Except Thrown Unit → Program Unit)
      (told : tupleFor call.op call.plane = .ok tuple)
      (same : normalizeNumeric numeral = tuple.target.activationEpoch)
      (ends : ∀ answer, ∃ result, rest answer = .done result) :
      CallStage call (.call (.pushMembership call.plane numeral call.slots) rest)
  | ended (result : Except Thrown Unit) : CallStage call (.done result)

/-- What holds of membership calls in the middle of their work. -/
structure Orderly (calls : ι → MembershipCall) (past : CallHistory ι)
    (pool : ServicePool dataplane ι) : Prop where
  unslotted : Unslotted pool.state
  health : HealthReached pool.state
  stages : ∀ thread, CallStage (calls thread) (pool.threads thread)
  granted : ∀ thread, asking (pool.threads thread) = true → thread ∈ accepted past
  reached : ∀ thread ∈ accepted past, ∀ plane target,
    (calls thread).AsksFor plane target → Reached pool.state plane target
  latest : ∀ plane, ∀ thread ∈ accepted past, ∀ revision,
    (calls thread).AsksFor plane
        { activationEpoch := (pool.state.planes.get plane).activationEpoch
          membershipRevision := revision } →
      ∃ newest highest,
        Newest calls past plane (pool.state.planes.get plane).activationEpoch newest highest ∧
          (asking (pool.threads newest) = true ∨
            (pushed plane (pool.state.planes.get plane).activationEpoch past).getLast? =
              some (calls newest).slots)

theorem callStage_start (deployment : Deployment) (call : MembershipCall) :
    CallStage call (do
        let _ ← call.driverOp.program deployment
        return ()) ∧
      asking (do
        let _ ← call.driverOp.program deployment
        return ()) = false := by
  cases declared : call.op.planes.get call.plane with
      simp only [MembershipCall.driverOp, DriverOp.program, Driver.applyMembership, declared]
  | none =>
      exact ⟨.ended _, rfl⟩
  | some goal =>
      split
      · exact ⟨.ended _, rfl⟩
      · obtain ⟨tuple, told⟩ : ∃ tuple, tupleFor call.op call.plane = .ok tuple :=
          ⟨_, tupleFor_ok.mpr ⟨goal, declared, rfl⟩⟩
        rw [told]
        refine ⟨.waiting tuple _ told (fun reply => ⟨_, _, rfl, ?_, ?_⟩) fun fault => ⟨_, rfl⟩,
          rfl⟩
        · obtain ⟨same, declaredSame, rfl⟩ := tupleFor_ok.mp told
          rw [declared] at declaredSame
          cases declaredSame
          rfl
        · intro answer
          cases answer with
          | ok value | error fault => exact ⟨_, rfl⟩

variable {s : AgentState}

theorem orderly_start (deployment : Deployment) (calls : ι → MembershipCall)
    (unslotted : Unslotted s) (health : HealthReached s) :
    Orderly calls [] (membershipPool deployment calls s) where
  unslotted := unslotted
  health := health
  stages thread := (callStage_start deployment (calls thread)).1
  granted thread waiting := by
    have idle := (callStage_start deployment (calls thread)).2
    exact absurd (idle.symm.trans waiting) (by decide)
  reached thread member := by simp [accepted] at member
  latest plane thread member := by simp [accepted] at member

theorem accepted_append (past : CallHistory ι)
    (event : Event (ServicePool dataplane ι) (Deed dataplane ι)) :
    accepted (past ++ [event]) = accepted past ++ (acceptance event).toList := by
  simp only [accepted, List.filterMap_append]
  cases granted : acceptance event <;> simp [granted]

theorem pushed_append (plane : Plane) (epoch : Nat) (past : CallHistory ι)
    (event : Event (ServicePool dataplane ι) (Deed dataplane ι)) :
    pushed plane epoch (past ++ [event]) =
      pushed plane epoch past ++ (pushAt plane epoch event).toList := by
  simp only [pushed, List.filterMap_append]
  cases found : pushAt plane epoch event <;> simp [found]

variable {thread other : ι} {event : Event (ServicePool dataplane ι) (Deed dataplane ι)}
  {calls : ι → MembershipCall} {past : CallHistory ι} {pool : ServicePool dataplane ι}
  {plane : Plane} {revision : Nat}

theorem Orderly.idle_latest (orderly : Orderly calls past pool)
    (idle : asking (pool.threads thread) = false)
    (quiet : ∀ plane epoch, pushAt plane epoch event = none)
    (member : other ∈ accepted past) (asks : (calls other).AsksFor plane
      { activationEpoch := (pool.state.planes.get plane).activationEpoch
        membershipRevision := revision }) :
    ∃ newest highest,
      Newest calls past plane (pool.state.planes.get plane).activationEpoch newest highest ∧
        (newest ≠ thread ∧ asking (pool.threads newest) = true ∨
          (pushed plane (pool.state.planes.get plane).activationEpoch
            (past ++ [event])).getLast? = some (calls newest).slots) := by
  obtain ⟨newest, highest, leads, state⟩ := orderly.latest plane other member revision asks
  refine ⟨newest, highest, leads, ?_⟩
  rw [pushed_append, quiet]
  simp only [Option.toList_none, List.append_nil]
  refine state.imp_left fun waiting => ⟨?_, waiting⟩
  rintro rfl
  exact absurd (idle.symm.trans waiting) (by decide)

theorem acceptance_granted {op : AgentOp} {result : op.Reply × AgentState}
    (label : event.label = .attempted thread op)
    (succeeded : serial op event.before.state = .ok result) :
    acceptance event = some thread := by
  simp only [acceptance, label, succeeded]

theorem acceptance_refused
    {op : AgentOp} {fault : Thrown} (label : event.label = .attempted thread op)
    (failed : serial op event.before.state = .error fault) : acceptance event = none := by
  simp only [acceptance, label, failed]

theorem newest_joined {now : CallHistory ι}
    (members : accepted now = accepted past ++ [thread]) {epoch : Nat}
    (standing : ∀ other ∈ accepted past, ∀ revision,
      (calls other).AsksFor plane
          { activationEpoch := epoch, membershipRevision := revision } →
        ∃ newest highest, Newest calls past plane epoch newest highest)
    (member : other ∈ accepted now) (asks : (calls other).AsksFor plane
      { activationEpoch := epoch, membershipRevision := revision }) :
    (∀ newest highest, Newest calls past plane epoch newest highest →
        Newest calls now plane epoch newest highest) ∧
      (∃ newest highest, Newest calls past plane epoch newest highest) ∨
      ∃ highest, Newest calls now plane epoch thread highest := by
  have split {someone : ι} (found : someone ∈ accepted now) :
      someone ∈ accepted past ∨ someone = thread := by
    rw [members] at found
    simpa using found
  have joined : thread ∈ accepted now := by simp [members]
  have kept {someone : ι} (found : someone ∈ accepted past) : someone ∈ accepted now := by
    rw [members]
    exact List.mem_append_left _ found
  by_cases own : ∃ target, (calls thread).AsksFor plane
      { activationEpoch := epoch, membershipRevision := target }
  · obtain ⟨target, mine⟩ := own
    by_cases beaten : ∃ newest highest,
        Newest calls past plane epoch newest highest ∧ target ≤ highest
    · obtain ⟨leader, top, leads, ahead⟩ := beaten
      refine .inl ⟨fun newest highest old => ⟨kept old.granted, old.asks, ?_⟩, leader, top,
        leads⟩
      intro someone found lower theirs
      rcases split found with before | rfl
      · exact old.highest someone before lower theirs
      · have same : target = lower := congrArg Coordinate.membershipRevision
          (mine.unique theirs).2
        have reach := old.highest leader leads.granted top leads.asks
        omega
    · refine .inr ⟨target, joined, mine, ?_⟩
      intro someone found lower theirs
      rcases split found with before | rfl
      · obtain ⟨newest, highest, old⟩ := standing someone before lower theirs
        have below := old.highest someone before lower theirs
        by_contra above
        exact beaten ⟨newest, highest, old, by omega⟩
      · exact Nat.le_of_eq (congrArg Coordinate.membershipRevision
          (mine.unique theirs).2).symm
  · have foreign {someone : ι} {lower : Nat} (theirs : (calls someone).AsksFor plane
        { activationEpoch := epoch, membershipRevision := lower }) : someone ≠ thread := by
      rintro rfl
      exact own ⟨lower, theirs⟩
    have before := (split member).resolve_right (foreign asks)
    refine .inl ⟨fun newest highest old => ⟨kept old.granted, old.asks, ?_⟩,
      standing other before revision asks⟩
    intro someone found lower theirs
    exact old.highest someone ((split found).resolve_right (foreign theirs)) lower theirs

variable [DecidableEq ι]

theorem continueWith_other (pool : ServicePool dataplane ι) (rest : Program Unit)
    (different : other ≠ thread) :
    (pool.continueWith thread rest).threads other = pool.threads other :=
  Function.update_of_ne different ..

theorem asking_kept (rest : Program Unit)
    (idle : asking (pool.threads thread) = false)
    (waiting : asking (pool.threads other) = true) :
    asking ((pool.continueWith thread rest).threads other) = true := by
  have different : other ≠ thread := by
    rintro rfl
    exact absurd (idle.symm.trans waiting) (by decide)
  rw [continueWith_other pool rest different]
  exact waiting

variable {ack : PlaneAck}

theorem applyHealth_epoch {next : AgentState}
    (succeeded : serial (.applyHealth op) s = .ok (ack, next)) (plane : Plane) :
    (next.planes.get plane).activationEpoch = (s.planes.get plane).activationEpoch := by
  rcases serial_planes succeeded plane with same | ⟨_, _, _, committed, _⟩ |
    ⟨other, applied, rfl, revises, changed⟩
  · rw [same]
  · cases committed
  · cases applied
    rw [changed]
    exact revises.sameEpoch

theorem applyHealth_reached {next : AgentState}
    (succeeded : serial (.applyHealth op) s = .ok (ack, next)) (unslotted : Unslotted s)
    (health : HealthReached s) : Reached next op.plane op.target := by
  obtain ⟨changed, mutated, rfl, -⟩ := serial_ok succeeded
  obtain ⟨-, -, cases⟩ := Agent.applyHealth_ok mutated
  rcases cases with ⟨⟨seen, found, text, -⟩, -⟩ | ⟨-, revises, -, rfl⟩
  · exact (health op seen found text).later succeeded unslotted
  · refine .inr ?_
    simp [record, Agent.revised, OperationTuple.reached]

theorem Orderly.granted_step (orderly : Orderly calls past pool)
    {tuple : OperationTuple} {rest : Program Unit} {written : AgentState}
    (told : tupleFor (calls thread).op (calls thread).plane = .ok tuple)
    (idle : asking (pool.threads thread) = false)
    (succeeded : serial (.applyHealth tuple) pool.state = .ok (ack, written))
    (stage : CallStage (calls thread) rest) (waiting : asking rest = true)
    (granted : acceptance event = some thread)
    (quiet : ∀ plane epoch, pushAt plane epoch event = none) :
    Orderly calls (past ++ [event])
      { pool.continueWith thread rest with state := written } := by
  have asks := MembershipCall.asksFor_tuple told
  have tuplePlane := tupleFor_plane told
  have members : accepted (past ++ [event]) = accepted past ++ [thread] := by
    rw [accepted_append, granted]
    rfl
  have pushes (plane : Plane) (epoch : Nat) :
      pushed plane epoch (past ++ [event]) = pushed plane epoch past := by
    rw [pushed_append, quiet]
    simp
  have step : AgentStep pool.state (.applyHealth tuple) written := ⟨ack, succeeded⟩
  refine
    { unslotted := unslotted_step step orderly.unslotted
      health := healthReached_step step orderly.unslotted orderly.health
      stages := fun other => ?_
      granted := fun other pending => ?_
      reached := fun other member plane target asksOther => ?_
      latest := fun plane other member revision asksOther => ?_ }
  · by_cases same : other = thread
    · subst same
      simpa [ServicePool.continueWith_threads] using stage
    · simpa [continueWith_other pool rest same] using orderly.stages other
  · rw [members]
    by_cases same : other = thread
    · simp [same]
    · have before : asking (pool.threads other) = true := by
        simpa [continueWith_other pool rest same] using pending
      exact List.mem_append_left _ (orderly.granted other before)
  · rw [members] at member
    rcases List.mem_append.mp member with old | new
    · exact (orderly.reached other old plane target asksOther).later succeeded
        orderly.unslotted
    · obtain rfl := List.mem_singleton.mp new
      obtain ⟨rfl, rfl⟩ := asks.unique asksOther
      rw [← tuplePlane]
      exact applyHealth_reached succeeded orderly.unslotted orderly.health
  · have epoch : (written.planes.get plane).activationEpoch =
        (pool.state.planes.get plane).activationEpoch := applyHealth_epoch succeeded plane
    change (calls other).AsksFor plane
      { activationEpoch := (written.planes.get plane).activationEpoch
        membershipRevision := revision } at asksOther
    change ∃ newest highest,
      Newest calls (past ++ [event]) plane (written.planes.get plane).activationEpoch newest
        highest ∧ _
    rw [epoch] at asksOther ⊢
    have standing : ∀ other ∈ accepted past, ∀ revision,
        (calls other).AsksFor plane
            { activationEpoch := (pool.state.planes.get plane).activationEpoch
              membershipRevision := revision } →
          ∃ newest highest, Newest calls past plane
            (pool.state.planes.get plane).activationEpoch newest highest := by
      intro other member revision asks
      obtain ⟨newest, highest, leads, -⟩ := orderly.latest plane other member revision asks
      exact ⟨newest, highest, leads⟩
    rcases newest_joined members standing member asksOther with
      ⟨lift, leader, top, leads⟩ | ⟨highest, leads⟩
    · obtain ⟨newest, highest, old, state⟩ :=
        orderly.latest plane leader leads.granted top leads.asks
      refine ⟨newest, highest, lift newest highest old, ?_⟩
      rw [pushes]
      exact state.imp_left (asking_kept rest idle)
    · refine ⟨thread, highest, leads, .inl ?_⟩
      simpa [ServicePool.continueWith_threads] using waiting

theorem Orderly.ended_step (orderly : Orderly calls past pool) {rest : Program Unit}
    (ended : ∃ result, rest = .done result) (ungranted : acceptance event = none)
    (latest : ∀ plane, ∀ other ∈ accepted past, ∀ revision,
      (calls other).AsksFor plane
          { activationEpoch := (pool.state.planes.get plane).activationEpoch
            membershipRevision := revision } →
        ∃ newest highest,
          Newest calls past plane (pool.state.planes.get plane).activationEpoch newest
              highest ∧
            (newest ≠ thread ∧ asking (pool.threads newest) = true ∨
              (pushed plane (pool.state.planes.get plane).activationEpoch
                (past ++ [event])).getLast? = some (calls newest).slots)) :
    Orderly calls (past ++ [event]) (pool.continueWith thread rest) := by
  obtain ⟨result, rfl⟩ := ended
  have members : accepted (past ++ [event]) = accepted past := by
    rw [accepted_append, ungranted]
    simp
  refine
    { unslotted := orderly.unslotted
      health := orderly.health
      stages := fun other => ?_
      granted := fun other pending => ?_
      reached := fun other member plane target asksOther => ?_
      latest := fun plane other member revision asksOther => ?_ }
  · by_cases same : other = thread
    · subst same
      rw [ServicePool.continueWith_threads]
      exact .ended result
    · rw [continueWith_other pool _ same]
      exact orderly.stages other
  · rw [members]
    by_cases same : other = thread
    · subst same
      rw [ServicePool.continueWith_threads] at pending
      cases pending
    · rw [continueWith_other pool _ same] at pending
      exact orderly.granted other pending
  · rw [members] at member
    exact orderly.reached other member plane target asksOther
  · rw [members] at member
    obtain ⟨newest, highest, leads, state⟩ := latest plane other member revision asksOther
    refine ⟨newest, highest, ⟨by rw [members]; exact leads.granted, leads.asks, ?_⟩, ?_⟩
    · rw [members]
      exact leads.highest
    · refine state.imp_left fun ⟨different, waiting⟩ => ?_
      rw [continueWith_other pool _ different]
      exact waiting

theorem Orderly.pushed_latest
    (orderly : Orderly calls past event.before) (heeds : Heeds calls event)
    {tuple : OperationTuple} {numeral : Numeral}
    (told : tupleFor (calls thread).op (calls thread).plane = .ok tuple)
    (same : normalizeNumeric numeral = tuple.target.activationEpoch)
    (label : event.label =
      .asked thread (.pushMembership (calls thread).plane numeral (calls thread).slots))
    (member : other ∈ accepted past)
    (asksOther : (calls other).AsksFor plane
      { activationEpoch := (event.before.state.planes.get plane).activationEpoch
        membershipRevision := revision }) :
    ∃ newest highest,
      Newest calls past plane (event.before.state.planes.get plane).activationEpoch newest
          highest ∧
        (newest ≠ thread ∧ asking (event.before.threads newest) = true ∨
          (pushed plane (event.before.state.planes.get plane).activationEpoch
            (past ++ [event])).getLast? = some (calls newest).slots) := by
  by_cases here : (calls thread).plane = plane ∧
      normalizeNumeric numeral = (event.before.state.planes.get plane).activationEpoch
  · obtain ⟨rfl, active⟩ := here
    -- The call that stands at the coordinate is the newest: whatever was accepted,
    -- the plane has reached.
    obtain ⟨current, waiting, stands⟩ := heeds thread _ numeral _ label active
    refine ⟨current, _, ⟨orderly.granted current waiting, stands, ?_⟩, ?_⟩
    · intro someone found lower theirs
      rcases orderly.reached someone found _ _ theirs with passed | ⟨-, behind⟩
      · exact absurd passed (Nat.lt_irrefl _)
      · exact behind
    · by_cases mine : current = thread
      · subst mine
        refine .inr ?_
        rw [pushed_append]
        simp [pushAt, label, active]
      · exact .inl ⟨mine, waiting⟩
  · obtain ⟨newest, highest, leads, state⟩ := orderly.latest plane other member revision asksOther
    have silent : pushAt plane (event.before.state.planes.get plane).activationEpoch event =
        none := by
      simp only [pushAt, label, ite_eq_right_iff]
      exact fun both => absurd both here
    refine ⟨newest, highest, leads, ?_⟩
    rw [pushed_append, silent]
    simp only [Option.toList_none, List.append_nil]
    refine state.imp_left fun waiting => ⟨?_, waiting⟩
    rintro rfl
    obtain ⟨atPlane, target⟩ := (MembershipCall.asksFor_tuple told).unique leads.asks
    exact here ⟨atPlane, by rw [same, target]⟩

theorem Orderly.step (orderly : Orderly calls past event.before)
    (step : ServicePool.Step event.before event.label event.after) (heeds : Heeds calls event) :
    Orderly calls (past ++ [event]) event.after := by
  obtain ⟨pool, deed, after⟩ := event
  change ServicePool.Step pool deed after at step
  change Orderly calls past pool at orderly
  cases step with
  | performed thread op next reply written turn succeeded =>
      have stage := orderly.stages thread
      have idle : asking (pool.threads thread) = false := by rw [turn]; rfl
      rw [turn] at stage
      cases stage with
      | waiting tuple next told granted refused =>
          obtain ⟨numeral, rest, pushes, same, ends⟩ := granted reply
          refine orderly.granted_step told idle succeeded ?_ ?_
            (acceptance_granted rfl succeeded) fun _ _ => rfl
          · rw [pushes]
            exact .pushing tuple numeral rest told same ends
          · rw [pushes]
            rfl
  | refused thread op next fault turn failed =>
      have stage := orderly.stages thread
      have idle : asking (pool.threads thread) = false := by rw [turn]; rfl
      rw [turn] at stage
      cases stage with
      | waiting tuple next told granted refused =>
          exact orderly.ended_step (refused fault) (acceptance_refused rfl failed)
            fun plane other member _ asks =>
              orderly.idle_latest idle (fun _ _ => rfl) member asks
  | looked thread next turn =>
      have stage := orderly.stages thread
      rw [turn] at stage
      cases stage
  | asked thread request next answer turn =>
      have stage := orderly.stages thread
      rw [turn] at stage
      cases stage with
      | pushing tuple numeral rest told same ends =>
          exact orderly.ended_step (ends answer) rfl fun plane other member _ asks =>
            orderly.pushed_latest heeds told same rfl member asks

/-- When every push at an active epoch happens while a call that asks for the
coordinate of its plane is about to push, and nobody is about to push any more,
the slots pushed last are the newest accepted ones. -/
theorem membership_is_fresh {deployment : Deployment} {calls : ι → MembershipCall}
    {prior : AgentHistory} {s : AgentState} {history : CallHistory ι}
    {final : ServicePool dataplane ι} (reached : AgentRun prior s)
    (run : Follows ServicePool.Step (membershipPool deployment calls s) history final)
    (heeds : ∀ event ∈ history, Heeds calls event)
    (returned : ∀ thread, asking (final.threads thread) = false) (plane : Plane) :
    PushedFresh calls history plane (final.state.planes.get plane).activationEpoch := by
  obtain ⟨unslotted, health⟩ : Unslotted s ∧ HealthReached s := by
    refine reached.invariant (fun s => Unslotted s ∧ HealthReached s)
      ⟨unslotted_initial, fun t seen found => by cases found⟩ ?_
    rintro before o after step ⟨unslotted, health⟩
    exact ⟨unslotted_step step unslotted, healthReached_step step unslotted health⟩
  have orderly : Orderly calls history final := by
    refine run.with_past (Orderly calls) (orderly_start deployment calls unslotted health) ?_
    intro past event member step orderly
    exact orderly.step step (heeds event member)
  intro thread member revision asks
  obtain ⟨newest, highest, leads, waiting | last⟩ :=
    orderly.latest plane thread member revision asks
  · exact absurd (waiting.symm.trans (returned newest)) (by decide)
  · exact ⟨newest, highest, leads, last⟩

end Calls

def activation : List AgentOp :=
  [.reserve (plainTuple unfenced .http 0 5), .stage (plainTuple unfenced .http 0 5),
    .commit (plainTuple unfenced .http 0 5) (plainEvidence 5)]

def activeHttp : AgentState :=
  ((performAll activation initial).map Prod.snd).getD initial

theorem activeHttp_reached : ∃ prior, AgentRun prior activeHttp := by
  cases executed : performAll activation initial with
  | none => exact absurd executed (by decide +kernel)
  | some result =>
      obtain ⟨history, final⟩ := result
      refine ⟨history, ?_⟩
      simp only [activeHttp, executed, Option.map_some, Option.getD_some]
      exact (follows_of_performAll executed).1

/-- A call that moves the revision of the HTTP plane at epoch 5, and pushes one
peer. -/
def revision (transition : String) (current target : Nat) (peer : String) : MembershipCall :=
  let goal : PlaneTarget :=
    { expectedCurrent :=
        { activationEpoch := .ofNat 5
          membershipRevision := .ofNat current }
      target :=
        { activationEpoch := .ofNat 5
          membershipRevision := .ofNat target }
      payloadDigest := "members" }
  { op :=
      { plainOperation { unfenced with transitionId := transition } 5 5 with
        planes := { http := some goal, stream := none } }
    plane := .http
    slots := OrderedMap.empty.set "pool" [peer] }

def retried : Fin 3 → MembershipCall
  | 0 | 2 => revision "first" 0 1 "old"
  | 1 => revision "second" 1 2 "new"

/-- The run of the calls one after the other, in the given order of steps. -/
def callsRun (calls : Fin 3 → MembershipCall) (order : List (Fin 3)) :
    Option (CallHistory (Fin 3) × ServicePool dataplane (Fin 3)) :=
  execute (ServicePool.stepOf (plainAnswers .none none)) order
    (membershipPool withMembership calls activeHttp)

/-- A late retry is answered from the cache, and pushes the old slots over the
new ones. -/
theorem retry_pushes_old_slots :
    ∃ prior history final,
      AgentRun prior activeHttp ∧
        Follows ServicePool.Step (membershipPool withMembership retried activeHttp) history final ∧
        (∀ thread, asking (final.threads thread) = false) ∧
        ¬ PushedFresh retried history .http (final.state.planes.get .http).activationEpoch := by
  have checked : (callsRun retried [0, 0, 1, 1, 2, 2]).any (fun (history, final) =>
      decide (accepted history = [0, 1, 2]
        ∧ (pushed .http 5 history).getLast? = some (retried 0).slots
        ∧ (final.state.planes.get .http).activationEpoch = 5
        ∧ ∀ thread, asking (final.threads thread) = false)) = true := by decide +kernel
  obtain ⟨⟨history, final⟩, executed, holds⟩ := (Option.any_eq_true _ _).mp checked
  obtain ⟨granted, last, epoch, returned⟩ := of_decide_eq_true holds
  obtain ⟨prior, reached⟩ := activeHttp_reached
  refine ⟨prior, history, final, reached, ServicePool.follows_of_stepOf executed, returned, ?_⟩
  rw [epoch]
  intro fresh
  obtain ⟨newest, highest, leads, latest⟩ := fresh 1 (by simp [granted]) 2 ⟨rfl, by decide⟩
  have above := leads.highest 1 (by simp [granted]) 2 ⟨rfl, by decide⟩
  rw [last] at latest
  have old (target : Nat)
      (asks : (retried 0).AsksFor .http
        { activationEpoch := 5, membershipRevision := target }) : target = 1 := by
    have first : (retried 0).AsksFor .http
        { activationEpoch := 5, membershipRevision := 1 } := ⟨rfl, by decide⟩
    exact congrArg Coordinate.membershipRevision (asks.unique first).2
  match newest with
  | 0 | 2 => exact absurd (old highest leads.asks) (by omega)
  | 1 => exact absurd latest (by decide)

/-- The pushing call asks for the coordinate its plane stands at. -/
def pushesCurrent (calls : Fin 3 → MembershipCall)
    (event : Event (ServicePool dataplane (Fin 3)) (Deed dataplane (Fin 3))) : Bool :=
  match event.label with
  | .asked thread (.pushMembership plane _ _) =>
      asking (event.before.threads thread) &&
        decide ((calls thread).AsksFor plane (event.before.state.planes.get plane).coordinate)
  | _ => true

theorem heeds_of_pushesCurrent {calls : Fin 3 → MembershipCall}
    {event : Event (ServicePool dataplane (Fin 3)) (Deed dataplane (Fin 3))}
    (current : pushesCurrent calls event = true) : Heeds calls event := by
  intro thread plane numeral slots label _
  simp only [pushesCurrent, label, Bool.and_eq_true, decide_eq_true_eq] at current
  exact ⟨thread, current⟩

/-- Two calls that push in the order they were accepted leave the second's slots. -/
theorem membership_is_fresh_in_order :
    ∃ history final,
      Follows ServicePool.Step (membershipPool withMembership retried activeHttp) history final ∧
        accepted history = [0, 1] ∧
        PushedFresh retried history .http (final.state.planes.get .http).activationEpoch := by
  have checked : (callsRun retried [0, 0, 1, 1]).any (fun (history, final) =>
      history.all (pushesCurrent retried) && decide (accepted history = [0, 1]
        ∧ ∀ thread, asking (final.threads thread) = false)) = true := by decide +kernel
  obtain ⟨⟨history, final⟩, executed, holds⟩ := (Option.any_eq_true _ _).mp checked
  obtain ⟨heeded, settled⟩ := Bool.and_eq_true_iff.mp holds
  obtain ⟨granted, returned⟩ := of_decide_eq_true settled
  obtain ⟨prior, reached⟩ := activeHttp_reached
  have run := ServicePool.follows_of_stepOf executed
  refine ⟨history, final, run, granted, ?_⟩
  exact membership_is_fresh reached run
    (fun event member => heeds_of_pushesCurrent (List.all_eq_true.mp heeded event member))
    returned .http

end Barycenter.Dp
