import Barycenter.Foundation.Transaction
import Barycenter.Store.Readback

/-!
# Changesets, plans and revisions

A changeset collects operations over a base revision.  A plan tries them out in
a transaction that is always taken back, seals the changeset and stores the
model that came out.  A commit consumes a plan and moves the head; a rollback
makes a new revision of an old model.  The transactions that write are one step
each: a commit and a rollback hold the row of the head, and a commit holds the
row of its plan, which a reopening and a discarding have to change.
-/

namespace Barycenter

namespace Store

open Config

inductive ChangesetState where
  | opened
  | sealed
  | committed
  | discarded
deriving DecidableEq, Repr

namespace ChangesetState

def text : ChangesetState → String
  | .opened => "open"
  | .sealed => "sealed"
  | .committed => "committed"
  | .discarded => "discarded"

/-- `state IN ('open','sealed')` -/
def live (state : ChangesetState) : Bool :=
  decide (state = .opened) || decide (state = .sealed)

end ChangesetState

structure ChangesetRow where
  baseRevision : Nat
  state : ChangesetState := .opened
  patch : List PatchOp := []
  committedRevision : Option Nat := none
deriving DecidableEq, Repr

inductive PlanState where
  | planned
  | committed
  | operationBound
  | applied
  | expired
  | superseded
  | failed
deriving DecidableEq, Repr

namespace PlanState

def text : PlanState → String
  | .planned => "planned"
  | .committed => "committed"
  | .operationBound => "operation_bound"
  | .applied => "applied"
  | .expired => "expired"
  | .superseded => "superseded"
  | .failed => "failed"

end PlanState

/-- A plan of a rollback or of a repeated application has no changeset. -/
structure PlanRow where
  changesetId : Option String
  state : PlanState := .planned
  baseRevision : Nat
  model : Model
  expiresAt : Nat
  targetRevision : Option Nat := none
  activationEpoch : Option Nat := none
deriving DecidableEq, Repr

structure RevisionRow where
  parent : Option Nat
  rollbackOf : Option Nat := none
  model : Model
deriving DecidableEq, Repr

/-- A refusal of the store, or an error of the database or of the language that
nothing translates. -/
inductive Failure where
  | store (error : StoreError)
  | database (sqlState constraint : String)
  | notIterable
deriving DecidableEq, Repr

structure ConfigDb where
  tables : Tables := {}
  head : Nat := 1
  revisions : OrderedMap Nat RevisionRow :=
    OrderedMap.empty.set 1 { parent := none, model := {} }
  changesets : OrderedMap String ChangesetRow := OrderedMap.empty
  plans : OrderedMap String PlanRow := OrderedMap.empty
  revisionSeq : Nat := 1
  epochSeq : Nat := 0
deriving DecidableEq, Repr

inductive Dialect where
  | postgres
  | sqlite
deriving DecidableEq, Repr

/-- What the store is built over.  Whether a model renders, which certificates
cover which hosts and which snapshots can be decoded is decided elsewhere. -/
structure StoreContext where
  dialect : Dialect
  collation : Collation
  assertApplicable : Model → Except StoreError Unit
  decodeModel : Model → Option Model

/-- A rollback of the database takes everything back but the numbers that one
of the dialects has drawn: its sequences never count back. -/
def ConfigDb.undo (dialect : Dialect) (before reached : ConfigDb) : ConfigDb :=
  match dialect with
  | .postgres =>
      { before with
        revisionSeq := max before.revisionSeq reached.revisionSeq
        epochSeq := max before.epochSeq reached.epochSeq }
  | .sqlite => before

abbrev StoreScript (α : Type) := Script ConfigDb Failure α

def refusal (status : Nat) (code message : String) : Failure :=
  .store { status := status, code := code, message := message }

def planTtlMs : Nat := 24 * 60 * 60 * 1000

def maxChangesetOps : Nat := 1000

def uniqueViolation (constraint : String) : Failure := .database "23505" constraint

def checkViolation (constraint : String) : Failure := .database "23514" constraint

section Statements

namespace ConfigDb

def withTables (db : ConfigDb) (tables : Tables) : ConfigDb := { db with tables := tables }

def withHead (db : ConfigDb) (head : Nat) : ConfigDb := { db with head := head }

def withRevision (db : ConfigDb) (revision : Nat) (row : RevisionRow) : ConfigDb :=
  { db with revisions := db.revisions.set revision row }

def withChangeset (db : ConfigDb) (changesetId : String) (row : ChangesetRow) : ConfigDb :=
  { db with changesets := db.changesets.set changesetId row }

def withPlan (db : ConfigDb) (planId : String) (row : PlanRow) : ConfigDb :=
  { db with plans := db.plans.set planId row }

def withPlans (db : ConfigDb) (plans : OrderedMap String PlanRow) : ConfigDb :=
  { db with plans := plans }

def withRevisionSeq (db : ConfigDb) (drawn : Nat) : ConfigDb := { db with revisionSeq := drawn }

def withEpochSeq (db : ConfigDb) (drawn : Nat) : ConfigDb := { db with epochSeq := drawn }

end ConfigDb

def drawRevision : StoreScript Nat := do
  Script.write fun db => db.withRevisionSeq (db.revisionSeq + 1)
  Script.read ConfigDb.revisionSeq

def drawEpoch : StoreScript Nat := do
  Script.write fun db => db.withEpochSeq (db.epochSeq + 1)
  Script.read ConfigDb.epochSeq

def insertRevision (revision : Nat) (row : RevisionRow) : StoreScript Unit := do
  let stored ← Script.read fun db => db.revisions.get? revision
  Script.require (stored = none) (uniqueViolation "config_revisions_pkey")
  Script.write fun db => db.withRevision revision row

def insertPlan (planId : String) (row : PlanRow) : StoreScript Unit := do
  let stored ← Script.read fun db => db.plans.get? planId
  Script.require (stored = none) (uniqueViolation "plans_pkey")
  Script.write fun db => db.withPlan planId row

def updatePlan (planId : String) (row : PlanRow) : StoreScript Unit :=
  Script.write fun db => db.withPlan planId row

def updateChangeset (changesetId : String) (row : ChangesetRow) : StoreScript Unit :=
  Script.write fun db => db.withChangeset changesetId row

/-- `WHERE changeset_id=$1 AND state='planned'` -/
def PlanRow.plannedOf (changesetId : String) (plan : PlanRow) : Bool :=
  decide (plan.changesetId = some changesetId) && decide (plan.state = .planned)

def expireAll (changesetId : String) (plans : OrderedMap String PlanRow) :
    OrderedMap String PlanRow :=
  plans.mapValues fun plan =>
    if plan.plannedOf changesetId then { plan with state := .expired } else plan

/-- The plans of a changeset that nobody has consumed become invalid. -/
def expirePlans (changesetId : String) : StoreScript Unit :=
  Script.write fun db => db.withPlans (expireAll changesetId db.plans)

def moveHead (revision : Nat) : StoreScript Unit :=
  Script.write fun db => db.withHead revision

def writeTables (tables : Tables) : StoreScript Unit :=
  Script.write fun db => db.withTables tables

end Statements

section Operations

variable (ctx : StoreContext)

def unknownChangeset (changesetId : String) : Failure :=
  refusal 404 "unknown_changeset" s!"changeset {changesetId} 이 없다"

def createChangeset (changesetId : String) (baseRevision : Nat) : StoreScript String := do
  let base ← Script.read fun db => db.revisions.get? baseRevision
  Script.require (base.isSome = true)
    (refusal 422 "unknown_revision" s!"base_revision {baseRevision} 이 없다")
  let stored ← Script.read fun db => db.changesets.get? changesetId
  Script.require (stored = none) (uniqueViolation "changesets_pkey")
  updateChangeset changesetId { baseRevision := baseRevision }
  return changesetId

def patchChangeset (changesetId : String) (ops : List PatchOp) : StoreScript Unit := do
  let stored ← Script.read fun db => db.changesets.get? changesetId
  let changeset ← Script.found stored (unknownChangeset changesetId)
  Script.require (changeset.state = .opened)
    (refusal 409 "changeset_not_open"
      s!"changeset 이 '{changeset.state.text}' 다 — 열려 있을 때만 고칠 수 있다. reopen 하라")
  Script.require (changeset.patch.length + ops.length ≤ maxChangesetOps)
    (refusal 409 "changeset_too_large"
      s!"changeset 하나에 담을 수 있는 것은 {maxChangesetOps} 개다 (지금 {changeset.patch.length} 개 + 보낸 {ops.length} 개). 나눠서 커밋하라")
  updateChangeset changesetId { changeset with patch := changeset.patch ++ ops }

/-- What a plan reads of its changeset before it tries the operations out. -/
def readForPlan (changesetId : String) : StoreScript ChangesetRow := do
  let stored ← Script.read fun db => db.changesets.get? changesetId
  let changeset ← Script.found stored (unknownChangeset changesetId)
  Script.require (changeset.state.live = true)
    (refusal 409 "changeset_closed" s!"changeset 이 '{changeset.state.text}' 다")
  return changeset

def candidate (tables : Tables) (ops : List PatchOp) : Except StoreError (Tables × Model) := do
  let applied ← applyOps tables ops
  let model := readModel ctx.collation applied
  ctx.assertApplicable model
  return (applied, model)

/-- `UPDATE changesets SET state='sealed' … WHERE id=$1 AND state IN ('open','sealed')` -/
def sealChangeset (changesetId : String) (changeset : ChangesetRow) : StoreScript Unit :=
  if changeset.state.live then
    updateChangeset changesetId { changeset with state := .sealed }
  else pure ()

/-- The number of rows that the first statement changes is not looked at. -/
def sealAndInsert
    (changesetId planId : String) (baseRevision : Nat) (model : Model) (now : Nat) :
    StoreScript Unit := do
  let stored ← Script.read fun db => db.changesets.get? changesetId
  let changeset ← Script.found stored (.database "23503" "plans_changeset_id_fkey")
  sealChangeset changesetId changeset
  insertPlan planId
    { changesetId := some changesetId
      baseRevision := baseRevision
      model := model
      expiresAt := now + planTtlMs }

def reopen (changesetId : String) : StoreScript Unit := do
  let stored ← Script.read fun db => db.changesets.get? changesetId
  let changeset ← Script.found stored
    (refusal 409 "not_sealed" "sealed 인 changeset 만 reopen 할 수 있다")
  Script.require (changeset.state = .sealed)
    (refusal 409 "not_sealed" "sealed 인 changeset 만 reopen 할 수 있다")
  updateChangeset changesetId { changeset with state := .opened }
  expirePlans changesetId

def discardChangeset (changesetId : String) : StoreScript Unit := do
  let stored ← Script.read fun db => db.changesets.get? changesetId
  let changeset ← Script.found stored
    (refusal 404 "not_found" s!"changeset '{changesetId}' 가 없다")
  Script.require (changeset.state.live = true)
    (refusal 409 "not_discardable"
      s!"changeset '{changesetId}' 는 {changeset.state.text} 다 — open/sealed 만 버릴 수 있다")
  updateChangeset changesetId { changeset with state := .discarded }
  expirePlans changesetId

def planStale (message : String) : Failure := refusal 409 "PLAN_STALE" message

/-- An expired plan is marked and refused; the refusal takes the mark back. -/
def requireFresh (planId : String) (plan : PlanRow) (now : Nat) : StoreScript Unit :=
  if plan.expiresAt < now then do
    updatePlan planId { plan with state := .expired }
    Script.refuse (planStale "plan 이 만료됐다 (expired) — replan 하라")
  else
    pure ()

/-- Superseding a plan that nobody has consumed breaks a constraint, because
such a plan has no target revision. -/
def supersedePlans (changesetId planId : String) : StoreScript Unit := do
  let plans ← Script.read ConfigDb.plans
  Script.require
    (∀ entry ∈ plans.entries, entry.1 ≠ planId → entry.2.plannedOf changesetId = false)
    (checkViolation "plan_reserved_when_committed")

def commit (changesetId planId : String) (now : Nat) : StoreScript (Nat × Nat) := do
  let head ← Script.read ConfigDb.head
  let stored ← Script.read fun db => db.plans.get? planId
  let plan ← Script.found stored (refusal 404 "unknown_plan" s!"plan {planId} 이 없다")
  Script.require (plan.changesetId = some changesetId)
    (refusal 409 "plan_mismatch" "plan 이 이 changeset 의 것이 아니다")
  Script.require (plan.state = .planned)
    (planStale
      (if plan.state = .expired then "plan 이 무효다 (expired) — replan 하라"
        else s!"plan 이 이미 '{plan.state.text}' 다 — plan_id 는 단회 소비다"))
  requireFresh planId plan now
  Script.require (plan.baseRevision = head)
    (planStale
      s!"head 가 움직였다 (head_moved): base={plan.baseRevision} head={head} — rebase 후 replan 하라")
  let changesetRow ← Script.read fun db => db.changesets.get? changesetId
  let revision ← drawRevision
  let changeset ← Script.found changesetRow .notIterable
  let tables ← Script.read ConfigDb.tables
  let (applied, model) ← Script.lift ((candidate ctx tables changeset.patch).mapError .store)
  writeTables applied
  let epoch ← drawEpoch
  insertRevision revision { parent := some head, model := model }
  moveHead revision
  updatePlan planId
    { plan with
      state := .committed
      targetRevision := some revision
      activationEpoch := some epoch }
  updateChangeset changesetId
    { changeset with
      state := .committed
      committedRevision := some revision }
  supersedePlans changesetId planId
  return (revision, epoch)

/-- The rollback of the tables, the revision and the plan are one transaction. -/
def rollbackTo (revision : Nat) (planId : String) (now : Nat) : StoreScript (Nat × Nat) := do
  let head ← Script.read ConfigDb.head
  let stored ← Script.read fun db => db.revisions.get? revision
  let source ← Script.found stored
    (refusal 404 "unknown_revision" s!"리비전 {revision} 이 없다")
  Script.require (revision < head)
    (refusal 409 "not_past" s!"r{revision} 은 과거가 아니다 (head=r{head}) — 롤백은 뒤로만 간다")
  let model ← Script.found (ctx.decodeModel source.model)
    (refusal 500 "corrupt_revision" s!"리비전 {revision} 의 스냅샷을 해독할 수 없다")
  let target ← drawRevision
  let (applied, restored) ← Script.lift ((candidate ctx {} (opsOf model)).mapError .store)
  writeTables applied
  let epoch ← drawEpoch
  insertRevision target
    { parent := some head, rollbackOf := some revision, model := restored }
  moveHead target
  insertPlan planId
    { changesetId := none
      state := .committed
      baseRevision := head
      model := restored
      expiresAt := now + planTtlMs
      targetRevision := some target
      activationEpoch := some epoch }
  return (target, epoch)

/-- A new plan for the revision at the head, with a new epoch. -/
def planHeadAgain (revision : Nat) (planId : String) (now : Nat) : StoreScript Nat := do
  let stored ← Script.read fun db => db.revisions.get? revision
  let source ← Script.found stored
    (refusal 404 "unknown_revision" s!"리비전 {revision} 이 없다")
  let model ← Script.found (ctx.decodeModel source.model)
    (refusal 500 "corrupt_revision" s!"리비전 {revision} 의 스냅샷을 해독할 수 없다")
  Script.lift ((ctx.assertApplicable model).mapError .store)
  let head ← Script.read ConfigDb.head
  Script.require (head = revision)
    (planStale s!"head 가 r{head} 로 바뀌었다 — 그 리비전을 적용한다")
  let epoch ← drawEpoch
  insertPlan planId
    { changesetId := none
      state := .committed
      baseRevision := revision
      model := model
      expiresAt := now + planTtlMs
      targetRevision := some revision
      activationEpoch := some epoch }
  return epoch

end Operations

end Store

end Barycenter
