import Barycenter.Foundation.History
import Barycenter.Store.ConfigStore

/-!
# Any number of users of the configuration store

Users call the operations of the store in any order.  Every operation is one
step but a plan, which reads its changeset, tries the operations out and seals
in three steps, between which anything may happen.  A record of an operation is
inserted after its transaction and on its own, so it can fail alone.
-/

namespace Barycenter

namespace Store

open Config

structure PlanCall where
  changesetId : String
  baseRevision : Nat
  ops : List PatchOp
  seenHead : Nat
  model : Option Model := none
deriving DecidableEq, Repr

structure StoreSystem where
  db : ConfigDb := {}
  planning : OrderedMap Nat PlanCall := OrderedMap.empty
deriving DecidableEq, Repr

/-- A dry run during which the head moves may see the tables of two revisions;
what it then makes of them is anything. -/
inductive StoreAction where
  | createChangeset (changesetId : String) (baseRevision : Nat)
  | patchChangeset (changesetId : String) (ops : List PatchOp)
  | planRead (call : Nat) (changesetId : String)
  | planDryRun (call : Nat) (torn : Model)
  | planSeal (call : Nat) (planId : String) (now : Nat)
  | reopen (changesetId : String)
  | discardChangeset (changesetId : String)
  | commit (changesetId planId : String) (now : Nat)
  | rollbackTo (revision : Nat) (planId : String) (now : Nat)
  | planHeadAgain (revision : Nat) (planId : String) (now : Nat)
deriving DecidableEq, Repr

/-- An action, and whether the record of it can be inserted. -/
structure StoreInput where
  action : StoreAction
  audited : Bool := true
deriving DecidableEq, Repr

inductive StoreReply where
  | done
  | changeset (changesetId : String)
  | reserved (revision activationEpoch : Nat)
  | epoch (activationEpoch : Nat)
deriving DecidableEq, Repr

abbrev StoreLabel := StoreInput × Except Failure StoreReply

def auditFailure : Failure := .database "08006" "audit"

section Steps

variable (ctx : StoreContext)

/-- A transaction and, when it succeeds, the record of it. -/
def inTransaction {α : Type} (script : StoreScript α) (reply : α → StoreReply)
    (audited : Bool) (db : ConfigDb) : Except Failure StoreReply × ConfigDb :=
  match Script.transact (ConfigDb.undo ctx.dialect) script db with
  | (.ok value, after) =>
      (if audited then .ok (reply value) else .error auditFailure, after)
  | (.error refusal, after) => (.error refusal, after)

def dryRun (s : StoreSystem) (call : PlanCall) (torn : Model) : Except Failure Model :=
  if s.db.head = call.seenHead then
    ((candidate ctx s.db.tables call.ops).map Prod.snd).mapError .store
  else .ok torn

def transacted {α : Type} (input : StoreInput) (s : StoreSystem) (script : StoreScript α)
    (reply : α → StoreReply) : StoreLabel × StoreSystem :=
  let (answer, db) := inTransaction ctx script reply input.audited s.db
  ((input, answer), { s with db := db })

/-- One step.  An action on a plan that is not at that point is none. -/
def act (input : StoreInput) (s : StoreSystem) : Option (StoreLabel × StoreSystem) :=
  match input.action with
  | .createChangeset changesetId baseRevision =>
      some (transacted ctx input s (createChangeset changesetId baseRevision) .changeset)
  | .patchChangeset changesetId ops =>
      some (transacted ctx input s (patchChangeset changesetId ops) fun _ => .done)
  | .planRead call changesetId =>
      match s.planning.get? call, (readForPlan changesetId s.db).1 with
      | some _, _ => none
      | none, .error refusal => some ((input, .error refusal), s)
      | none, .ok changeset =>
          let reading : PlanCall :=
            { changesetId := changesetId
              baseRevision := changeset.baseRevision
              ops := changeset.patch
              seenHead := s.db.head }
          some ((input, .ok .done), { s with planning := s.planning.set call reading })
  | .planDryRun call torn =>
      match s.planning.get? call with
      | none => none
      | some reading =>
          match dryRun ctx s reading torn with
          | .error refusal =>
              some ((input, .error refusal), { s with planning := s.planning.erase call })
          | .ok model =>
              some ((input, .ok .done),
                { s with planning := s.planning.set call { reading with model := some model } })
  | .planSeal call planId now =>
      match s.planning.get? call with
      | none => none
      | some reading =>
          match reading.model with
          | none => none
          | some model =>
              some (transacted ctx input { s with planning := s.planning.erase call }
                (sealAndInsert reading.changesetId planId reading.baseRevision model now)
                fun _ => .done)
  | .reopen changesetId =>
      some (transacted ctx input s (reopen changesetId) fun _ => .done)
  | .discardChangeset changesetId =>
      some (transacted ctx input s (discardChangeset changesetId) fun _ => .done)
  | .commit changesetId planId now =>
      some (transacted ctx input s (commit ctx changesetId planId now) fun reserved =>
        .reserved reserved.1 reserved.2)
  | .rollbackTo revision planId now =>
      some (transacted ctx input s (rollbackTo ctx revision planId now) fun reserved =>
        .reserved reserved.1 reserved.2)
  | .planHeadAgain revision planId now =>
      some (transacted ctx input s (planHeadAgain ctx revision planId now) .epoch)

def StoreStep (before : StoreSystem) (label : StoreLabel) (after : StoreSystem) : Prop :=
  act ctx label.1 before = some (label, after)

def performInputs (inputs : List StoreInput) (s : StoreSystem) :
    Option (List (Event StoreSystem StoreLabel) × StoreSystem) :=
  execute (act ctx) inputs s

end Steps

end Store

end Barycenter
