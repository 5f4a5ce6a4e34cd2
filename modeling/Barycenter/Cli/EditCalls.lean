import Barycenter.Cli.EditedRevisions
import Barycenter.Store.PlanFidelity
import Barycenter.Store.ResourceKeeper

/-!
# Commands that edit a resource

A command reads the model at the head, makes its patch of the resource it finds
there, asks for the head a second time, and has the patch planned and committed
over that head: six requests, of which the plan is three steps of the store.
Between two of them other commands and other users of the store do anything.
-/

namespace Barycenter

namespace Cli

open Config Store

/-- A command ends with a message of its own, or with the answer of the store. -/
inductive EditFailure where
  | said (message : String)
  | refused (failure : Failure)
deriving DecidableEq, Repr

/-- What a command has, and what it is about to ask for. -/
inductive Awaiting where
  | head (patch : List PatchOp)
  | opening (patch : List PatchOp) (base : Nat)
  | patching (changesetId : String) (patch : List PatchOp)
  | planning (changesetId : String)
  | drying (changesetId : String)
  | sealing (changesetId : String)
  | showing (changesetId planId : String)
  | committing (changesetId planId owner : String)
  | answered (reply : Except EditFailure Nat)
deriving DecidableEq, Repr

structure EditCall where
  request : EditRequest
  awaiting : Awaiting
deriving DecidableEq, Repr

structure EditWorld where
  store : StoreSystem := {}
  calls : OrderedMap Nat EditCall := OrderedMap.empty
deriving DecidableEq, Repr

/-- One request of a command, or one step of it.  What is drawn at random, the
clock and whether the record can be inserted come from outside. -/
inductive Move where
  | readHead
  | openChangeset (changesetId : String) (audited : Bool)
  | sendPatch (audited : Bool)
  | planRead
  | planDryRun (torn : Model)
  | planSeal (planId : String) (now : Nat) (audited : Bool)
  | showPlan
  | commit (now : Nat) (audited : Bool)
deriving DecidableEq, Repr

inductive EditAction where
  | others (input : StoreInput)
  | start (call : Nat) (request : EditRequest)
  | own (call : Nat) (move : Move)
deriving DecidableEq, Repr

def EditWorld.become (world : EditWorld) (call : Nat) (edit : EditCall) : EditWorld :=
  { world with calls := world.calls.set call edit }

section Steps

variable (ctx : StoreContext)

/-- The model at the head.  A revision never changes, so finding out the head
and reading its model is one reading. -/
def modelAtHead (db : ConfigDb) : Except EditFailure Model :=
  match db.revisions.get? db.head with
  | none => .error (.refused (refusal 404 "unknown_revision" s!"리비전 {db.head} 이 없다"))
  | some row =>
      match ctx.decodeModel row.model with
      | none =>
          .error (.refused
            (refusal 500 "corrupt_revision" s!"리비전 {db.head} 의 스냅샷을 해독할 수 없다"))
      | some model => .ok model

/-- The patch is made before anything else is asked for. -/
def started (db : ConfigDb) (request : EditRequest) : Awaiting :=
  match modelAtHead ctx db with
  | .error failure => .answered (.error failure)
  | .ok model =>
      match editPatch request model with
      | .error message => .answered (.error (.said message))
      | .ok patch => .head patch

def ownerOf (db : ConfigDb) (changesetId planId : String) : Awaiting :=
  match db.plans.get? planId with
  | none =>
      .answered (.error (.refused (refusal 404 "unknown_plan" s!"plan {planId} 이 없다")))
  | some plan =>
      match plan.changesetId with
      | none | some "" =>
          .answered (.error (.said
            "이 plan 은 changeset 이 없다 — 롤백 plan 이면 bary rollback 을 쓴다"))
      | some owner => .committing changesetId planId owner

def readingMove (db : ConfigDb) : Awaiting → Move → Option Awaiting
  | .head patch, .readHead => some (.opening patch db.head)
  | .showing changesetId planId, .showPlan => some (ownerOf db changesetId planId)
  | _, _ => none

/-- Of the answers of the store only a reservation names a revision. -/
def revisionOf : StoreReply → Nat
  | .reserved revision _ => revision
  | _ => 0

/-- The requests that change the store, and what the command has afterwards. -/
def askingMove (call : Nat) : Awaiting → Move → Option (StoreInput × (StoreReply → Awaiting))
  | .opening patch base, .openChangeset changesetId audited =>
      some (⟨.createChangeset changesetId base, audited⟩, fun _ => .patching changesetId patch)
  | .patching changesetId patch, .sendPatch audited =>
      some (⟨.patchChangeset changesetId patch, audited⟩, fun _ => .planning changesetId)
  | .planning changesetId, .planRead =>
      some (⟨.planRead call changesetId, true⟩, fun _ => .drying changesetId)
  | .drying changesetId, .planDryRun torn =>
      some (⟨.planDryRun call torn, true⟩, fun _ => .sealing changesetId)
  | .sealing changesetId, .planSeal planId now audited =>
      some (⟨.planSeal call planId now, audited⟩, fun _ => .showing changesetId planId)
  | .committing _ planId owner, .commit now audited =>
      some (⟨.commit owner planId now, audited⟩, fun reply => .answered (.ok (revisionOf reply)))
  | _, _ => none

/-- What a command has after the store has answered; an error ends it. -/
def answeredBy (next : StoreReply → Awaiting) : Except Failure StoreReply → Awaiting
  | .ok reply => next reply
  | .error failure => .answered (.error (.refused failure))

def planNumber : StoreAction → Option Nat
  | .planRead call _ => some call
  | .planDryRun call _ => some call
  | .planSeal call _ _ => some call
  | _ => none

/-- The number of a plan in the making belongs to one request. -/
def free (world : EditWorld) (action : StoreAction) : Bool :=
  (planNumber action).all fun call => (world.calls.get? call).isNone

def editStep (world : EditWorld) : EditAction → Option EditWorld
  | .others input =>
      if free world input.action then
        (act ctx input world.store).map fun (_, store) => { world with store := store }
      else none
  | .start call request =>
      if (world.calls.get? call).isNone ∧ (world.store.planning.get? call).isNone then
        some (world.become call ⟨request, started ctx world.store.db request⟩)
      else none
  | .own call move =>
      match world.calls.get? call with
      | none => none
      | some edit =>
          match readingMove world.store.db edit.awaiting move,
              askingMove call edit.awaiting move with
          | some awaiting, _ => some (world.become call { edit with awaiting := awaiting })
          | none, none => none
          | none, some (input, next) =>
              (act ctx input world.store).map fun (label, store) =>
                { world with store := store }.become call
                  { edit with awaiting := answeredBy next label.2 }

abbrev EditEvent := Event EditWorld EditAction

def EditRun (history : List EditEvent) (final : EditWorld) : Prop :=
  Follows (fun before action after => editStep ctx before action = some after) {} history final

/-- What one step does: it leaves the store alone, or it is a step of the store. -/
inductive EditEffect (world : EditWorld) : EditAction → EditWorld → Prop where
  | others {input : StoreInput} {label : StoreLabel} {store : StoreSystem}
      (apart : free world input.action = true)
      (acted : act ctx input world.store = some (label, store)) :
      EditEffect world (.others input) { world with store := store }
  | started {call : Nat} {request : EditRequest}
      (fresh : world.calls.get? call = none)
      (unused : world.store.planning.get? call = none) :
      EditEffect world (.start call request)
        (world.become call ⟨request, started ctx world.store.db request⟩)
  | read {call : Nat} {move : Move} {edit : EditCall} {awaiting : Awaiting}
      (waiting : world.calls.get? call = some edit)
      (reading : readingMove world.store.db edit.awaiting move = some awaiting) :
      EditEffect world (.own call move) (world.become call { edit with awaiting := awaiting })
  | asked {call : Nat} {move : Move} {edit : EditCall} {input : StoreInput}
      {next : StoreReply → Awaiting} {label : StoreLabel} {store : StoreSystem}
      (waiting : world.calls.get? call = some edit)
      (asking : askingMove call edit.awaiting move = some (input, next))
      (acted : act ctx input world.store = some (label, store)) :
      EditEffect world (.own call move)
        ({ world with store := store }.become call
          { edit with awaiting := answeredBy next label.2 })

theorem editStep_effect {world after : EditWorld} {action : EditAction}
    (stepped : editStep ctx world action = some after) : EditEffect ctx world action after := by
  cases action with
  | others input =>
      simp only [editStep] at stepped
      split at stepped
      · next apart =>
          obtain ⟨⟨label, store⟩, acted, rfl⟩ := Option.map_eq_some_iff.mp stepped
          exact .others apart acted
      · cases stepped
  | start call request =>
      simp only [editStep, Option.isNone_iff_eq_none] at stepped
      split at stepped
      · next fresh =>
          cases stepped
          exact .started fresh.1 fresh.2
      · cases stepped
  | own call move =>
      simp only [editStep] at stepped
      split at stepped
      · cases stepped
      · next edit waiting =>
          split at stepped
          · next awaiting reading =>
              cases stepped
              exact .read waiting reading
          · cases stepped
          · next input next _ asking =>
              obtain ⟨⟨label, store⟩, acted, rfl⟩ := Option.map_eq_some_iff.mp stepped
              exact .asked waiting asking acted

end Steps

end Cli

end Barycenter
