import Barycenter.Control.MembershipOnly
import Barycenter.Store.ConfigStore
import Mathlib.Data.List.Induction

/-!
# Plans and operations as the control plane asks for them

A plan is the model that a commit made together with its reserved coordinates,
an operation is what applying it came to.  Three questions are put to the two
tables: which operation is active, which plans are still to be applied, and
whether the application of the head has failed.  The active operation is the
activated one with the greatest epoch, the later one where two have the same.
-/

namespace Barycenter.Control

open Config
open Store (PlanState)

/-- A row of `plans`. -/
structure PlanEntry where
  id : String
  state : PlanState
  targetRevision : Option Nat
  activationEpoch : Option Nat
  model : Model
  renderDigest : String
deriving DecidableEq, Repr

/-- A row of `operations`, without the envelope and the outcome but for the part
of the outcome that a question reads. -/
structure OperationEntry where
  id : String
  planId : String
  revision : Nat
  activationEpoch : Nat
  generation : String
  phase : RowPhase
  partialTransition : Bool := false
deriving DecidableEq, Repr

def OperationEntry.activated (entry : OperationEntry) : Bool :=
  entry.phase = .ended .activated

def planWithId (plans : List PlanEntry) (planId : String) : Option PlanEntry :=
  plans.find? fun plan => plan.id = planId

def operationOfPlan (operations : List OperationEntry) (planId : String) :
    Option OperationEntry :=
  operations.find? fun entry => entry.planId = planId

theorem planWithId_spec {plans : List PlanEntry} {planId : String} {plan : PlanEntry}
    (found : planWithId plans planId = some plan) : plan ∈ plans ∧ plan.id = planId := by
  have named := List.find?_some found
  exact ⟨List.mem_of_find?_eq_some found, of_decide_eq_true named⟩

theorem planWithId_eq_none {plans : List PlanEntry} {planId : String} :
    planWithId plans planId = none ↔ planId ∉ plans.map PlanEntry.id := by
  simp [planWithId]

/-! ## The active operation -/

/-- `ORDER BY activation_epoch DESC, created_at DESC`: the rows stand in the
order in which they were created. -/
def newerOf (best : Option OperationEntry) (entry : OperationEntry) : Option OperationEntry :=
  match best with
  | none => some entry
  | some held => if held.activationEpoch ≤ entry.activationEpoch then some entry else some held

def newest (operations : List OperationEntry) : Option OperationEntry :=
  operations.foldl newerOf none

def newestActivated (operations : List OperationEntry) : Option OperationEntry :=
  newest (operations.filter OperationEntry.activated)

def activeRevision (operations : List OperationEntry) : Option Nat :=
  (newestActivated operations).map OperationEntry.revision

/-- The digest that the plan of the active operation was stored with, and the
epoch of that operation. -/
def activeRenderDigest (plans : List PlanEntry) (operations : List OperationEntry) :
    Option (String × Nat) := do
  let entry ← newest <| operations.filter fun entry =>
    entry.activated && (planWithId plans entry.planId).isSome
  let plan ← planWithId plans entry.planId
  return (plan.renderDigest, entry.activationEpoch)

/-! ## What is still to be applied -/

/-- `COALESCE(max(revision), 0)` over the activated operations -/
def activatedRevision (operations : List OperationEntry) : Nat :=
  ((operations.filter OperationEntry.activated).map OperationEntry.revision).max?.getD 0

/-- The greatest epoch at which a revision was activated. -/
def epochOfActivated (operations : List OperationEntry) (revision : Nat) : Option Nat :=
  ((operations.filter fun entry => entry.activated && entry.revision = revision).map
    OperationEntry.activationEpoch).max?

/-- A plan is committed, has no operation, and nothing newer is active. -/
def isPending (operations : List OperationEntry) (plan : PlanEntry) : Bool :=
  decide (plan.state = .committed) &&
    (operationOfPlan operations plan.id).isNone &&
    match plan.targetRevision, plan.activationEpoch with
    | some revision, some epoch =>
        decide (activatedRevision operations < revision) ||
          (decide (revision = activatedRevision operations) &&
            (epochOfActivated operations revision).any fun active => decide (active < epoch))
    | _, _ => false

/-- The order of the answer is not kept: nobody asks for more than its members. -/
def pendingApplies (plans : List PlanEntry) (operations : List OperationEntry) :
    List PlanEntry :=
  plans.filter (isPending operations)

/-- A committed plan of a revision that nobody has used. -/
def unusedPlan (plans : List PlanEntry) (operations : List OperationEntry) (revision : Nat) :
    Option PlanEntry :=
  plans.find? fun plan =>
    decide (plan.targetRevision = some revision) && decide (plan.state = .committed) &&
      (operationOfPlan operations plan.id).isNone

/-- `ORDER BY created_at DESC`: the last row of a revision. -/
def lastOperation (operations : List OperationEntry) (revision : Nat) : Option OperationEntry :=
  (operations.filter fun entry => entry.revision = revision).getLast?

/-- Whether the application of the head failed so that it may be tried again. -/
def failedHead (plans : List PlanEntry) (operations : List OperationEntry) (head : Nat) :
    Option OperationEntry :=
  if activeRevision operations = some head then none
  else if (unusedPlan plans operations head).isSome then none
  else
    match lastOperation operations head with
    | none => none
    | some entry =>
        if entry.phase = .ended .failed ∧ entry.partialTransition = false then some entry
        else none

end Barycenter.Control
