import Barycenter.Control.AcmeRunner
import Barycenter.Control.MembershipOnly
import Barycenter.Store.PlanFidelity
import Mathlib.Data.List.Sort

/-!
# Sweeps of the history of revisions

A sweep deletes what has been of no use for some days: plans that were never
consumed, changesets that were discarded, operations that have ended, and the
oldest revisions that nothing refers to.  Every statement of a sweep is a
transaction of its own, and may fail before or after it has taken effect.  The
users of the store, the applications of plans and other sweeps go on meanwhile.

The logs that a sweep also shortens refer to nothing.
-/

namespace Barycenter.Control

open Config Store Dp

structure OperationRecord where
  planId : String
  revision : Nat
  phase : RowPhase := .pending
  updatedAt : Nat
deriving DecidableEq, Repr

/-- The columns `created_at`. -/
structure CreationTimes where
  revisions : Nat → Nat
  plans : String → Nat
  changesets : String → Nat

/-- For how many days things are kept; for ever where no number is given. -/
structure Retention where
  planDays : Option Nat := none
  changesetDays : Option Nat := none
  operationDays : Option Nat := none
  revisionDays : Option Nat := none
  maxPerSweep : Nat := 50000
deriving DecidableEq, Repr

/-- `checkDays`, and the check of the limit -/
def Retention.admissible (setting : Retention) : Bool :=
  decide (1 ≤ setting.maxPerSweep) &&
    [setting.planDays, setting.changesetDays, setting.operationDays, setting.revisionDays].all
      fun days => days.all fun number => decide (1 ≤ number)

inductive SweepStage where
  | plans
  | changesets
  | operations
  | selecting
  /-- Revisions that nothing refers to, from the oldest on. -/
  | measuring (rows : List Nat)
  /-- The part of them that has no gap. -/
  | holding (oldest : List Nat)
  | clearing (doomed : List Nat)
  | deleting (doomed : List Nat)
deriving DecidableEq, Repr

structure SweepCall where
  setting : Retention
  stage : SweepStage := .plans
deriving DecidableEq, Repr

structure HistoryWorld where
  now : Nat := 0
  store : StoreSystem := {}
  operations : OrderedMap String OperationRecord := .empty
  created : CreationTimes := ⟨fun _ => 0, fun _ => 0, fun _ => 0⟩
  sweeps : Nat → Option SweepCall := fun _ => none

inductive HistoryAction where
  | wait (milliseconds : Nat)
  | store (input : StoreInput)
  /-- An application inserts its operation. -/
  | claim (operationId planId : String)
  | bound (planId : String)
  | record (operationId : String) (phase : ApplyPhase)
  | applied (planId : String)
  | startSweep (call : Nat) (setting : Retention)
  | goSweep (call : Nat) (fault : Fault)

namespace HistoryWorld

def db (world : HistoryWorld) : ConfigDb := world.store.db

def withDb (world : HistoryWorld) (db : ConfigDb) : HistoryWorld :=
  { world with store := { world.store with db := db } }

def dayMs : Nat := 24 * 60 * 60 * 1000

/-- `time < now() - make_interval(days => …)` -/
def aged (world : HistoryWorld) (days time : Nat) : Bool :=
  decide (time + days * dayMs < world.now)

/-- `ORDER BY time LIMIT limit` -/
def oldest {κ : Type} (limit : Nat) (time : κ → Nat) (keys : List κ) : List κ :=
  (keys.insertionSort fun left right => time left ≤ time right).take limit

/-! ## Statements of a sweep -/

/-- The foreign key of operations refuses the deletion of their plans. -/
def removePlans (world : HistoryWorld) (doomed : String → PlanRow → Bool) : Option HistoryWorld :=
  let gone := (world.db.plans.entries.filter fun entry => doomed entry.1 entry.2).map Prod.fst
  if world.operations.values.any fun operation => decide (operation.planId ∈ gone) then none
  else
    some (world.withDb (world.db.withPlans (world.db.plans.without fun planId =>
      decide (planId ∈ gone))))

/-- `state IN ('planned', 'expired')` -/
def unconsumed (plan : PlanRow) : Bool :=
  decide (plan.state = .planned) || decide (plan.state = .expired)

def deletePlans (world : HistoryWorld) (days limit : Nat) : Option HistoryWorld :=
  let chosen := oldest limit world.created.plans ((world.db.plans.entries.filter fun entry =>
    unconsumed entry.2 && world.aged days entry.2.expiresAt).map Prod.fst)
  world.removePlans fun planId _ => decide (planId ∈ chosen)

def deleteChangesets (world : HistoryWorld) (days limit : Nat) : Option HistoryWorld :=
  let chosen := oldest limit world.created.changesets
    ((world.db.changesets.entries.filter fun entry =>
      decide (entry.2.state = .discarded) && world.aged days (world.created.changesets entry.1)).map
        Prod.fst)
  (world.removePlans fun _ plan => plan.changesetId.any fun changesetId =>
      decide (changesetId ∈ chosen)).map fun cascaded =>
    cascaded.withDb { cascaded.db with
      changesets := cascaded.db.changesets.without fun changesetId =>
        decide (changesetId ∈ chosen) }

def ended : RowPhase → Bool
  | .pending => false
  | .ended phase => isTerminalPhase phase

def deleteOperations (world : HistoryWorld) (days limit : Nat) : HistoryWorld :=
  let time (operationId : String) : Nat :=
    ((world.operations.get? operationId).map OperationRecord.updatedAt).getD 0
  let chosen := oldest limit time ((world.operations.entries.filter fun entry =>
    ended entry.2.phase && world.aged days entry.2.updatedAt &&
      decide (entry.2.revision ≠ world.db.head)).map Prod.fst)
  { world with
    operations := world.operations.without fun operationId => decide (operationId ∈ chosen) }

/-- Nothing but another revision refers to the revision. -/
def unheld (world : HistoryWorld) (revision : Nat) : Bool :=
  decide (revision ≠ world.db.head) &&
    (world.db.plans.values.all fun plan => decide (plan.targetRevision ≠ some revision)) &&
    (world.operations.values.all fun operation => decide (operation.revision ≠ revision)) &&
    world.db.changesets.values.all fun changeset =>
      decide (changeset.baseRevision ≠ revision) &&
        decide (changeset.committedRevision ≠ some revision)

def selectRevisions (world : HistoryWorld) (days limit : Nat) : List Nat :=
  ((world.db.revisions.keys.filter fun revision =>
    world.aged days (world.created.revisions revision) && world.unheld revision).insertionSort
      (· ≤ ·)).take limit

def contiguous : Nat → List Nat → List Nat
  | _, [] => []
  | expect, revision :: rest =>
      if revision = expect then revision :: contiguous (expect + 1) rest else []

/-- The oldest revision up to `cut` that a later one is a rollback to. -/
def heldFrom (world : HistoryWorld) (cut : Nat) : Option Nat :=
  (world.db.revisions.entries.filterMap fun entry =>
    entry.2.rollbackOf.filter fun source =>
      decide (source ≤ cut) && decide (cut < entry.1)).min?

def clearParents (world : HistoryWorld) (doomed : List Nat) : HistoryWorld :=
  world.withDb { world.db with
    revisions :=
      { entries := world.db.revisions.entries.map fun entry =>
          (entry.1, if entry.2.parent.any (fun parent => decide (parent ∈ doomed)) &&
              decide (entry.1 ∉ doomed) then { entry.2 with parent := none } else entry.2)
        distinct := by
          rw [List.map_map]
          exact world.db.revisions.distinct } }

/-- Whether something that stays refers to a revision. -/
def refers (world : HistoryWorld) (doomed : List Nat) : Bool :=
  (world.db.revisions.entries.any fun entry =>
    decide (entry.1 ∉ doomed) &&
      (entry.2.parent.any (fun parent => decide (parent ∈ doomed)) ||
        entry.2.rollbackOf.any fun source => decide (source ∈ doomed))) ||
    (world.db.plans.values.any fun plan =>
      plan.targetRevision.any fun revision => decide (revision ∈ doomed)) ||
    (world.operations.values.any fun operation => decide (operation.revision ∈ doomed)) ||
    world.db.changesets.values.any fun changeset =>
      decide (changeset.baseRevision ∈ doomed) ||
        changeset.committedRevision.any fun revision => decide (revision ∈ doomed)

/-- The foreign keys refuse the deletion of a revision that is referred to. -/
def deleteRevisions (world : HistoryWorld) (doomed : List Nat) : Option HistoryWorld :=
  if world.refers doomed then none
  else
    some (world.withDb { world.db with
      revisions := world.db.revisions.without fun revision => decide (revision ∈ doomed) })

/-! ## Steps -/

def onward (world : HistoryWorld) (call : Nat) (next : Option SweepCall) : HistoryWorld :=
  { world with sweeps := Function.update world.sweeps call next }

/-- A statement of a sweep.  When it throws, so does the sweep. -/
def statement (world : HistoryWorld) (call : Nat) (fault : Fault) (effect : Option HistoryWorld)
    (next : Option SweepCall) : HistoryWorld :=
  match fault, effect with
  | .answered, some after => after.onward call next
  | .unheard, some after => after.onward call none
  | _, _ => world.onward call none

def goSweep (world : HistoryWorld) (call : Nat) (fault : Fault) (sweep : SweepCall) :
    HistoryWorld :=
  let onto (stage : SweepStage) : Option SweepCall := some { sweep with stage := stage }
  let limit := sweep.setting.maxPerSweep
  match sweep.stage with
  | .plans =>
      match sweep.setting.planDays with
      | none => world.onward call (onto .changesets)
      | some days => world.statement call fault (world.deletePlans days limit) (onto .changesets)
  | .changesets =>
      match sweep.setting.changesetDays with
      | none => world.onward call (onto .operations)
      | some days =>
          world.statement call fault (world.deleteChangesets days limit) (onto .operations)
  | .operations =>
      match sweep.setting.operationDays with
      | none => world.onward call (onto .selecting)
      | some days =>
          world.statement call fault (some (world.deleteOperations days limit)) (onto .selecting)
  | .selecting =>
      match sweep.setting.revisionDays with
      | none => world.onward call none
      | some days =>
          let rows := world.selectRevisions days limit
          world.statement call fault (some world)
            (if rows = [] then none else onto (.measuring rows))
  | .measuring rows =>
      match world.db.revisions.keys.min? with
      | none => world.onward call none
      | some first =>
          let oldest := contiguous first rows
          world.statement call fault (some world)
            (if oldest = [] then none else onto (.holding oldest))
  | .holding oldest =>
      let doomed :=
        match oldest.getLast?.bind world.heldFrom with
        | none => oldest
        | some held => oldest.filter fun revision => decide (revision < held)
      world.statement call fault (some world)
        (if doomed = [] then none else onto (.clearing doomed))
  | .clearing doomed =>
      world.statement call fault (some (world.clearParents doomed)) (onto (.deleting doomed))
  | .deleting doomed => world.statement call fault (world.deleteRevisions doomed) none

def stamped (world : HistoryWorld) (next : StoreSystem) : CreationTimes where
  revisions revision :=
    if (world.db.revisions.get? revision).isSome then world.created.revisions revision
    else if (next.db.revisions.get? revision).isSome then world.now
    else world.created.revisions revision
  plans planId :=
    if (world.db.plans.get? planId).isSome then world.created.plans planId
    else if (next.db.plans.get? planId).isSome then world.now
    else world.created.plans planId
  changesets changesetId :=
    if (world.db.changesets.get? changesetId).isSome then world.created.changesets changesetId
    else if (next.db.changesets.get? changesetId).isSome then world.now
    else world.created.changesets changesetId

/-- `INSERT INTO operations … ON CONFLICT (plan_id) DO NOTHING`, for a plan that has
a target -/
def claim (world : HistoryWorld) (operationId planId : String) : Option HistoryWorld :=
  match (world.db.plans.get? planId).bind PlanRow.targetRevision with
  | none => none
  | some revision =>
      if (world.operations.get? operationId).isSome then none
      else if world.operations.values.any fun operation => decide (operation.planId = planId) then
        some world
      else
        some { world with
          operations := world.operations.set operationId
            { planId := planId, revision := revision, updatedAt := world.now } }

def setPlanState (world : HistoryWorld) (planId : String) (plan : PlanRow) (state : PlanState) :
    HistoryWorld :=
  world.withDb (world.db.withPlan planId { plan with state := state })

def act (ctx : StoreContext) (world : HistoryWorld) : HistoryAction → Option HistoryWorld
  | .wait milliseconds => some { world with now := world.now + milliseconds }
  | .store input =>
      (Store.act ctx input world.store).map fun (_, next) =>
        { world with store := next, created := world.stamped next }
  | .claim operationId planId => world.claim operationId planId
  | .bound planId =>
      ((world.db.plans.get? planId).filter fun plan => decide (plan.state = .committed)).map
        fun plan => world.setPlanState planId plan .operationBound
  | .record operationId phase =>
      (world.operations.get? operationId).map fun operation =>
        { world with
          operations := world.operations.set operationId
            { operation with phase := .ended phase, updatedAt := world.now } }
  | .applied planId =>
      ((world.db.plans.get? planId).filter fun plan => plan.targetRevision.isSome).map
        fun plan => world.setPlanState planId plan .applied
  | .startSweep call setting =>
      if setting.admissible && (world.sweeps call).isNone then
        some (world.onward call (some { setting := setting }))
      else none
  | .goSweep call fault => (world.sweeps call).map fun sweep => world.goSweep call fault sweep

def Step (ctx : StoreContext) (before : HistoryWorld) (action : HistoryAction)
    (after : HistoryWorld) : Prop :=
  before.act ctx action = some after

end HistoryWorld

end Barycenter.Control
