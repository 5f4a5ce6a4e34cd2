import Barycenter.Control.ApplyPaths

/-!
# Calls against one store

Any number of callers commit, apply, retry, cancel and recover, each one step
between two waits, in any order, and each may stop for good at any wait.  A
commit holds the head, so it is one step.  An apply leaves traces one after the
other: the directory of the generation, the row of the operation, the state of
the plan, the journal of the data plane, the outcome.  The certificate publisher
and the refresh of address sets commit and then apply by themselves, provided
that no other plan is pending at that moment.
-/

namespace Barycenter.Control

open Config
open Dp (ApplyPhase Plane PerPlane)
open Validate (bindTransitionConflicts)

/-- A revision as what its commit made of the model before it. -/
structure RevisionEntry where
  number : Nat
  automatic : Bool
  change : Model → Model

def changed (model : Model) (entry : RevisionEntry) : Model := entry.change model

/-- The model of a revision, or of the newest one that is not newer. -/
def modelOf (revisions : List RevisionEntry) (number : Nat) : Model :=
  (revisions.filter fun entry => entry.number ≤ number).foldl changed {}

structure ReservedPlan where
  id : String
  revision : Nat
  epoch : Nat
  model : Model
deriving DecidableEq, Repr

def PlanEntry.reserved (plan : PlanEntry) : Option ReservedPlan :=
  if plan.state = .planned then none
  else
    match plan.targetRevision, plan.activationEpoch with
    | some revision, some epoch => some ⟨plan.id, revision, epoch, plan.model⟩
    | _, _ => none

def recordOutcome (operations : List OperationEntry) (id : String) (phase : ApplyPhase)
    (partialTransition : Bool) : List OperationEntry :=
  operations.map fun entry =>
    if entry.id = id then
      { entry with phase := .ended phase, partialTransition := partialTransition }
    else entry

/-- Where a call stands.  A call that applies knows whether it does so by itself. -/
inductive Call where
  | idle
  | editing (base : Nat) (change : Model → Model) (automatic : Bool)
  | guarding (planId : String)
  | looking (planId : String) (automatic : Bool)
  | heading (planId : String) (automatic : Bool)
  | comparing (plan : ReservedPlan) (automatic : Bool)
  | choosing (plan : ReservedPlan) (slots : PerPlane Slots) (automatic : Bool)
  | building (plan : ReservedPlan) (slots : PerPlane Slots) (automatic : Bool)
  | claiming (plan : ReservedPlan) (entry : OperationEntry) (automatic : Bool)
  | binding (plan : ReservedPlan) (entry : OperationEntry) (automatic : Bool)
  | driving (plan : ReservedPlan) (entry : OperationEntry) (automatic : Bool)
  | working (plan : ReservedPlan) (entry : OperationEntry)
  | leading (plan : ReservedPlan) (slots : PerPlane Slots) (live : Nat) (automatic : Bool)
  | inserting (plan : ReservedPlan) (entry : OperationEntry) (automatic : Bool)
  | pushing (plan : ReservedPlan) (entry : OperationEntry) (automatic : Bool)
  | recording (planId id : String) (phase : ApplyPhase) (partialTransition : Bool)
  | closing (planId : String)
  | failing
  | rerendering
  | replanning (revision : Nat)
  | cancelling (id : String)
  | aborting (planId id : String)
  | recovering
  | resuming (unfinished : Option String)

inductive Task where
  | commit (change : Model → Model) (automatic : Bool)
  | apply (planId : String)
  | retry
  | rerender
  | cancel (id : String)
  | recover

/-- What comes from outside with a step: a new identifier, the digest that a new
plan is stored with, and what the data plane does and answers. -/
structure Answer where
  id : String := ""
  digest : String := ""
  generation : String := ""
  opened : Bool := true
  /-- The phase and whether it is half-way; nothing when the driver throws. -/
  outcome : Option (ApplyPhase × Bool) := none
  /-- The journal of the operation is closed. -/
  closed : Bool := true
  epochs : PerPlane Nat := ⟨0, 0⟩

inductive Action (ι : Type) where
  | start (caller : ι) (task : Task)
  | go (caller : ι) (answer : Answer)
  /-- The call throws, or its process ends. -/
  | crash (caller : ι)
  /-- A transaction that is taken back has drawn numbers. -/
  | skip
  /-- Health, drains and discovered endpoints change. -/
  | observe (verdicts : Verdicts) (intake : Option DiscoveryIntake)
  | sweep (names : List String)

structure World (ι : Type) where
  head : Nat := 1
  revisionSeq : Nat := 1
  epochSeq : Nat := 0
  revisions : List RevisionEntry := []
  plans : List PlanEntry := []
  operations : List OperationEntry := []
  verdicts : Verdicts := ⟨.empty, []⟩
  intake : Option DiscoveryIntake := none
  directories : OrderedMap String Generation := .empty
  /-- The epoch that each plane is at. -/
  epochs : PerPlane Nat := ⟨0, 0⟩
  /-- The operation whose journal is open. -/
  unfinished : Option String := none
  calls : ι → Call

namespace World

variable {ι : Type}

def initial : World ι := { calls := fun _ => .idle }

def active (world : World ι) : Nat := (activeRevision world.operations).getD 0

def membership (plant : Plant) (world : World ι) (model : Model) : PerPlane Slots :=
  let eligible := eligibleWithDiscovery model world.verdicts world.intake
  ⟨slotsForEligible plant.renderer model eligible world.intake .http,
    slotsForEligible plant.renderer model eligible world.intake .stream⟩

def blocked (plant : Plant) (world : World ι) (plan : ReservedPlan) : Bool :=
  match activeRevision world.operations with
  | none => false
  | some active =>
      decide (active ≠ plan.revision) &&
        decide (bindTransitionConflicts plant.platform
          (modelOf world.revisions active).listeners plan.model.listeners ≠ [])

/-- The epoch whose membership is moved, if the plan renders to the digest that
the active one was stored with. -/
def liveEpoch (plant : Plant) (world : World ι) (plan : ReservedPlan) : Option Nat :=
  if usesMembership plant then
    (activeRenderDigest world.plans world.operations).bind fun (digest, live) =>
      if digest = plant.sha256 (plant.renderer.conf plan.model) then some live else none
  else none

def generation (plant : Plant) (plan : ReservedPlan) (slots : PerPlane Slots) :
    Option Generation :=
  (certificateFiles plant plan.model).map fun certificates =>
    { name := generationName plan.revision plan.epoch
      epoch := plan.epoch
      conf := plant.renderer.conf plan.model
      certificates := certificates
      membership := if usesMembership plant then some slots else none }

def targets (world : World ι) (slots : PerPlane Slots) (live : Nat) : List Plane :=
  Plane.all.filter fun plane =>
    world.epochs.get plane = live && (slots.get plane).keys.length ≠ 0

def released (world : World ι) (id : String) (closed : Bool) : Option String :=
  if closed && world.unfinished = some id then none else world.unfinished

variable [DecidableEq ι]

def become (world : World ι) (caller : ι) (call : Call) : World ι :=
  { world with calls := Function.update world.calls caller call }

/-- The commit of a changeset over the head, by a user or by itself. -/
def commit (world : World ι) (caller : ι) (answer : Answer) (base : Nat)
    (change : Model → Model) (automatic : Bool) : World ι :=
  if world.head ≠ base ∨ (planWithId world.plans answer.id).isSome then
    world.become caller .idle
  else
    let number := world.revisionSeq + 1
    ({ world with
      head := number
      revisionSeq := number
      epochSeq := world.epochSeq + 1
      revisions := world.revisions ++ [⟨number, automatic, change⟩]
      plans := world.plans ++
        [{ id := answer.id, state := .committed, targetRevision := some number,
           activationEpoch := some (world.epochSeq + 1),
           model := change (modelOf world.revisions world.head),
           renderDigest := answer.digest }] } : World ι).become caller
      (if automatic then .guarding answer.id else .idle)

def planAgain (world : World ι) (caller : ι) (answer : Answer) (revision : Nat) : World ι :=
  if world.head ≠ revision ∨ (planWithId world.plans answer.id).isSome then
    world.become caller .idle
  else
    ({ world with
      epochSeq := world.epochSeq + 1
      plans := world.plans ++
        [{ id := answer.id, state := .committed, targetRevision := some revision,
           activationEpoch := some (world.epochSeq + 1),
           model := modelOf world.revisions revision,
           renderDigest := answer.digest }] } : World ι).become caller .idle

/-- Write the directory of the generation, unless one of the name has other
content. -/
def build (plant : Plant) (world : World ι) (caller : ι) (answer : Answer)
    (plan : ReservedPlan) (slots : PerPlane Slots) (automatic : Bool) : World ι :=
  match generation plant plan slots with
  | none => world.become caller .idle
  | some built =>
      if (world.directories.get? built.name).any fun other => decide (other ≠ built) then
        world.become caller .idle
      else
        ({ world with directories := world.directories.set built.name built } : World ι).become caller
          (.claiming plan
            { id := answer.id, planId := plan.id, revision := plan.revision,
              activationEpoch := plan.epoch, generation := built.name, phase := .pending }
            automatic)

/-- `INSERT … ON CONFLICT (plan_id) DO NOTHING` -/
def insert (world : World ι) (entry : OperationEntry) : List OperationEntry :=
  if (operationOfPlan world.operations entry.planId).isSome ∨
      ∃ other ∈ world.operations, other.id = entry.id then
    world.operations
  else world.operations ++ [entry]

def setPlanState (world : World ι) (planId : String) (change : Store.PlanState → Store.PlanState) :
    List PlanEntry :=
  world.plans.map fun plan =>
    if plan.id = planId then { plan with state := change plan.state } else plan

def proceed (plant : Plant) (world : World ι) (caller : ι) (answer : Answer) : World ι :=
  match world.calls caller with
  | .idle => world
  | .editing base change automatic => world.commit caller answer base change automatic
  | .guarding planId =>
      if (pendingApplies world.plans world.operations).filter (fun plan => plan.id ≠ planId) = []
      then world.become caller (.looking planId true)
      else world.become caller .idle
  | .looking planId automatic =>
      if (operationOfPlan world.operations planId).isSome then world.become caller .idle
      else world.become caller (.heading planId automatic)
  | .heading planId automatic =>
      match (planWithId world.plans planId).bind PlanEntry.reserved with
      | none => world.become caller .idle
      | some plan =>
          if plan.revision = world.head then world.become caller (.comparing plan automatic)
          else world.become caller .idle
  | .comparing plan automatic =>
      if world.blocked plant plan then world.become caller .idle
      else world.become caller (.choosing plan (world.membership plant plan.model) automatic)
  | .choosing plan slots automatic =>
      match world.liveEpoch plant plan with
      | some live => world.become caller (.leading plan slots live automatic)
      | none => world.become caller (.building plan slots automatic)
  | .building plan slots automatic => world.build plant caller answer plan slots automatic
  | .claiming plan entry automatic =>
      if (world.insert entry).length = world.operations.length then world.become caller .idle
      else
        ({ world with operations := world.insert entry } : World ι).become caller
          (.binding plan entry automatic)
  | .binding plan entry automatic =>
      ({ world with
        plans := world.setPlanState plan.id fun state =>
          if state = .committed then .operationBound else state } : World ι).become caller
        (.driving plan entry automatic)
  | .driving plan entry _ =>
      if answer.opened then
        ({ world with unfinished := some entry.id } : World ι).become caller (.working plan entry)
      else world.become caller (.recording plan.id entry.id .failed false)
  | .working plan entry =>
      ({ world with
        unfinished := world.released entry.id answer.closed
        epochs := answer.epochs } : World ι).become caller
        (match answer.outcome with
          | none => .recording plan.id entry.id .failed false
          | some (phase, partialTransition) =>
              .recording plan.id entry.id phase partialTransition)
  | .leading plan slots live automatic =>
      if world.targets slots live = [] then world.become caller .idle
      else
        world.become caller
          (.inserting plan
            { id := answer.id, planId := plan.id, revision := plan.revision,
              activationEpoch := live, generation := answer.generation, phase := .pending }
            automatic)
  | .inserting plan entry automatic =>
      ({ world with operations := world.insert entry } : World ι).become caller
        (.pushing plan entry automatic)
  | .pushing plan entry _ =>
      match answer.outcome with
      | none => world.become caller .idle
      | some _ => world.become caller (.recording plan.id entry.id .activated false)
  | .recording planId id phase partialTransition =>
      ({ world with
        operations := recordOutcome world.operations id phase partialTransition } : World ι).become caller
        (if phase = .activated then .closing planId else .idle)
  | .closing planId =>
      ({ world with plans := world.setPlanState planId fun _ => .applied } : World ι).become caller .idle
  | .failing =>
      match failedHead world.plans world.operations world.head with
      | none => world.become caller .idle
      | some _ => world.become caller (.replanning world.head)
  | .rerendering =>
      if activeRevision world.operations = some world.head ∧
          unusedPlan world.plans world.operations world.head = none then
        world.become caller (.replanning world.head)
      else world.become caller .idle
  | .replanning revision => world.planAgain caller answer revision
  | .cancelling id =>
      match world.operations.find? (fun entry => entry.id = id) with
      | none => world.become caller .idle
      | some entry =>
          if entry.activated then world.become caller .idle
          else world.become caller (.aborting entry.planId id)
  | .aborting planId id =>
      match answer.outcome with
      | none => world.become caller .idle
      | some _ =>
          ({ world with unfinished := world.released id true } : World ι).become caller
            (.recording planId id .failed false)
  | .recovering => world.become caller (.resuming world.unfinished)
  | .resuming unfinished =>
      ({ world with
        unfinished := if answer.closed then none else world.unfinished
        epochs := answer.epochs } : World ι).become caller
        (match answer.outcome, unfinished with
          | some (phase, partialTransition), some id =>
              .recording
                (((world.operations.find? fun entry => entry.id = id).map
                  OperationEntry.planId).getD "")
                id phase partialTransition
          | _, _ => .idle)

def begin (world : World ι) : Task → Call
  | .commit change automatic => .editing world.head change automatic
  | .apply planId => .looking planId false
  | .retry => .failing
  | .rerender => .rerendering
  | .cancel id => .cancelling id
  | .recover => .recovering

def advance (plant : Plant) (world : World ι) : Action ι → World ι
  | .start caller task =>
      match world.calls caller with
      | .idle => world.become caller (world.begin task)
      | _ => world
  | .go caller answer => world.proceed plant caller answer
  | .crash caller => world.become caller .idle
  | .skip =>
      { world with revisionSeq := world.revisionSeq + 1, epochSeq := world.epochSeq + 1 }
  | .observe verdicts intake => { world with verdicts := verdicts, intake := intake }
  | .sweep names =>
      { world with directories := world.directories.without fun name => name ∈ names }

def Step (plant : Plant) (before : World ι) (action : Action ι) (after : World ι) : Prop :=
  after = before.advance plant action

end World

end Barycenter.Control
