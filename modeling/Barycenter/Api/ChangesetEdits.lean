import Barycenter.Foundation.Sha256
import Barycenter.Store.ConfigEffects

/-!
# Requests that edit a changeset

A request that appends operations to a changeset is a sequence of statements.
With an `If-Match` header it first reads the changeset and compares its tag;
then it checks the shape of the operations, appends them by one conditional
update, and records what it did.  An update that finds nothing to change is
explained by one more reading.  Between two statements of a request any
statement of another request and any operation of the store may run.
-/

namespace Barycenter

namespace Api

open Store

/-- What the handling of a request takes from its surroundings. -/
structure EditContext where
  store : StoreContext
  /-- `JSON.stringify` of the stored operations -/
  stringify : List PatchOp → String
  shapeCheck : PatchOp → Except Failure Unit

/-- A request without a list of operations carries none in `patch`. -/
structure PatchRequest where
  changesetId : String
  ifMatch : Option String
  patch : Option (List PatchOp)
deriving DecidableEq, Repr

inductive Stage where
  | checked
  | missed (ops : List PatchOp)
  | appended
  | answered (reply : Except Failure Unit)
deriving DecidableEq, Repr

structure Edit where
  request : PatchRequest
  stage : Stage
deriving DecidableEq, Repr

structure EditWorld where
  store : StoreSystem := {}
  edits : OrderedMap Nat Edit := OrderedMap.empty
deriving DecidableEq, Repr

inductive EditStep where
  | store (input : StoreInput)
  | receive (call : Nat) (request : PatchRequest)
  | append (call : Nat)
  | explain (call : Nat)
  | record (call : Nat) (inserted : Bool)
deriving DecidableEq, Repr

namespace EditWorld

def row (world : EditWorld) (changesetId : String) : Option ChangesetRow :=
  world.store.db.changesets.get? changesetId

def become (world : EditWorld) (call : Nat) (edit : Edit) : EditWorld :=
  { world with edits := world.edits.set call edit }

def withRow (world : EditWorld) (changesetId : String) (row : ChangesetRow) : EditWorld :=
  { world with
    store :=
      { world.store with
        db :=
          { world.store.db with
            changesets := world.store.db.changesets.set changesetId row } } }

end EditWorld

section Handling

variable (ctx : EditContext)

def changesetEtag (patch : List PatchOp) (state : ChangesetState) : String :=
  let digest := Sha256.hex s!"{state.text}:{ctx.stringify patch}"
  "\"" ++ String.ofList (digest.toList.take 16) ++ "\""

def preconditionFailed (etag : String) : Failure :=
  refusal 412 "precondition_failed"
    s!"If-Match 가 현재 표현과 다르다 (현재 {etag}) — 다시 읽고 다시 보내라"

/-- The comparison that an `If-Match` header asks for. -/
def precondition (stored : Option ChangesetRow) (ifMatch : String) : Except Failure Unit :=
  match stored with
  | none => .error (refusal 404 "unknown_changeset" "changeset 이 없다")
  | some row =>
      let etag := changesetEtag ctx row.patch row.state
      if ifMatch ≠ etag ∧ ifMatch ≠ "*" then .error (preconditionFailed etag) else .ok ()

def received (world : EditWorld) (request : PatchRequest) : Stage :=
  match request.ifMatch with
  | none => .checked
  | some ifMatch =>
      match precondition ctx (world.row request.changesetId) ifMatch with
      | .ok _ => .checked
      | .error refusal => .answered (.error refusal)

def asPatchOps (patch : Option (List PatchOp)) : Except Failure (List PatchOp) :=
  match patch with
  | none => .error (refusal 400 "malformed" "patch 는 배열이어야 한다")
  | some ops => .ok ops

/-- The operations of a request, when all of them have the right shape. -/
def checkedOps (request : PatchRequest) : Except Failure (List PatchOp) := do
  let ops ← asPatchOps request.patch
  ops.forM ctx.shapeCheck
  return ops

def Appendable (row : ChangesetRow) (ops : List PatchOp) : Prop :=
  row.state = .opened ∧ row.patch.length + ops.length ≤ maxChangesetOps

instance (row : ChangesetRow) (ops : List PatchOp) : Decidable (Appendable row ops) := by
  unfold Appendable
  infer_instance

/-- The check of the operations and the appending update. -/
def appending (world : EditWorld) (call : Nat) (request : PatchRequest) : EditWorld :=
  match checkedOps ctx request with
  | .error refusal => world.become call ⟨request, .answered (.error refusal)⟩
  | .ok ops =>
      match world.row request.changesetId with
      | none => world.become call ⟨request, .missed ops⟩
      | some row =>
          if Appendable row ops then
            (world.withRow request.changesetId
              { row with patch := row.patch ++ ops }).become call ⟨request, .appended⟩
          else world.become call ⟨request, .missed ops⟩

/-- Why the update found nothing, as far as a later reading tells. -/
def explanation (world : EditWorld) (changesetId : String) (ops : List PatchOp) : Failure :=
  match world.row changesetId with
  | none => unknownChangeset changesetId
  | some row =>
      if row.state ≠ .opened then
        refusal 409 "changeset_not_open"
          s!"changeset 이 '{row.state.text}' 다 — 열려 있을 때만 고칠 수 있다. reopen 하라"
      else
        refusal 409 "changeset_too_large"
          s!"changeset 하나에 담을 수 있는 것은 {maxChangesetOps} 개다 (지금 {row.patch.length} 개 + 보낸 {ops.length} 개). 나눠서 커밋하라"

/-- One statement of one request, or one operation of the store. -/
def editStep (world : EditWorld) : EditStep → Option EditWorld
  | .store input =>
      (act ctx.store input world.store).map fun (_, store) => { world with store := store }
  | .receive call request =>
      match world.edits.get? call with
      | some _ => none
      | none => some (world.become call ⟨request, received ctx world request⟩)
  | .append call =>
      match world.edits.get? call with
      | some ⟨request, .checked⟩ => some (appending ctx world call request)
      | _ => none
  | .explain call =>
      match world.edits.get? call with
      | some ⟨request, .missed ops⟩ =>
          some (world.become call
            ⟨request, .answered (.error (explanation world request.changesetId ops))⟩)
      | _ => none
  | .record call inserted =>
      match world.edits.get? call with
      | some ⟨request, .appended⟩ =>
          some (world.become call
            ⟨request, .answered (if inserted then .ok () else .error auditFailure)⟩)
      | _ => none

abbrev EditEvent := Event EditWorld EditStep

def EditRun (history : List EditEvent) (final : EditWorld) : Prop :=
  Follows (fun before step after => editStep ctx before step = some after) {} history final

end Handling

/-! ## What a step does to changesets -/

/-- The changeset stays, and its operations stay in front of the new ones. -/
def Grown (changesetId : String) (patch : List PatchOp) (world : EditWorld) : Prop :=
  ∃ row, world.row changesetId = some row ∧ patch <+: row.patch

section Steps

variable {ctx : EditContext} {before after : EditWorld} {call : Nat} {changesetId : String}

variable {world : EditWorld}

@[simp]
theorem row_become {edit : Edit} :
    (world.become call edit).row changesetId = world.row changesetId := rfl

variable {row : ChangesetRow}

theorem Grown.trans {patch : List PatchOp} (first : patch <+: row.patch)
    (later : Grown changesetId row.patch world) : Grown changesetId patch world := by
  obtain ⟨next, stored, second⟩ := later
  exact ⟨next, stored, first.trans second⟩

theorem grown_set {other : String} {old row kept : ChangesetRow}
    (stored : world.row other = some old) (longer : old.patch <+: row.patch)
    (present : world.row changesetId = some kept) :
    Grown changesetId kept.patch (world.withRow other row) := by
  by_cases same : other = changesetId
  · subst same
    cases stored.symm.trans present
    refine ⟨row, ?_, longer⟩
    simp [EditWorld.row, EditWorld.withRow]
  · refine ⟨kept, ?_, List.prefix_rfl⟩
    simp only [EditWorld.row, EditWorld.withRow] at present ⊢
    rw [OrderedMap.get?_set, if_neg same]
    exact present

theorem grown_fresh {other : String} {row kept : ChangesetRow} (fresh : world.row other = none)
    (present : world.row changesetId = some kept) :
    Grown changesetId kept.patch (world.withRow other row) := by
  have different : other ≠ changesetId := by
    rintro rfl
    rw [fresh] at present
    cases present
  refine ⟨kept, ?_, List.prefix_rfl⟩
  simp only [EditWorld.row, EditWorld.withRow] at present ⊢
  rw [OrderedMap.get?_set, if_neg different]
  exact present

theorem grown_effect {action : StoreAction} {next : StoreSystem}
    (effect : Effect ctx.store world.store action next)
    (present : world.row changesetId = some row) :
    Grown changesetId row.patch { world with store := next } := by
  have unchanged : Grown changesetId row.patch world := ⟨row, present, List.prefix_rfl⟩
  cases effect with
  | drew _ _ | begun _ | tried _ _ | dropped _ _ => exact unchanged
  | sealedPlan _ _ stored _ =>
      rename_i reading _ changeset _ _ _
      by_cases live : changeset.state.live
      · have grown := @grown_set _ world reading.changesetId changeset
          { changeset with state := .sealed } _ stored List.prefix_rfl present
        simpa [Grown, EditWorld.row, EditWorld.withRow, live] using grown
      · simpa [Grown, EditWorld.row, live] using unchanged
  | changed change =>
      cases change with
      | created _ fresh => exact @grown_fresh _ world _ _ _ fresh present
      | patched stored _ =>
          exact @grown_set _ world _ _ _ _ stored (List.prefix_append _ _) present
      | reopened stored _ | discarded stored _ | committed _ _ _ _ _ stored _ _ =>
          exact @grown_set _ world _ _ _ _ stored List.prefix_rfl present
      | rolledBack _ _ _ _ _ _ | replanned _ _ _ => exact unchanged

inductive Appending (ctx : EditContext) (before : EditWorld) (call : Nat)
    (request : PatchRequest) : EditWorld → Prop where
  | appended {row : ChangesetRow} {ops : List PatchOp}
      (fit : checkedOps ctx request = .ok ops)
      (stored : before.row request.changesetId = some row) (appendable : Appendable row ops) :
      Appending ctx before call request
        ((before.withRow request.changesetId
          { row with patch := row.patch ++ ops }).become call ⟨request, .appended⟩)
  | left {stage : Stage} (different : stage ≠ .checked ∧ stage ≠ .appended) :
      Appending ctx before call request (before.become call ⟨request, stage⟩)

theorem appending_cases (request : PatchRequest) :
    Appending ctx before call request (appending ctx before call request) := by
  unfold appending
  split
  · exact .left ⟨Stage.noConfusion, Stage.noConfusion⟩
  · next ops fit =>
      split
      · exact .left ⟨Stage.noConfusion, Stage.noConfusion⟩
      · next row stored =>
          split
          · next appendable => exact .appended fit stored appendable
          · exact .left ⟨Stage.noConfusion, Stage.noConfusion⟩

inductive EditEffect (ctx : EditContext) (before : EditWorld) : EditStep → EditWorld → Prop where
  | stored {input : StoreInput} {next : StoreSystem}
      (effect : Effect ctx.store before.store input.action next) :
      EditEffect ctx before (.store input) { before with store := next }
  | received {call : Nat} {request : PatchRequest} (free : before.edits.get? call = none) :
      EditEffect ctx before (.receive call request)
        (before.become call ⟨request, received ctx before request⟩)
  | appended {call : Nat} {request : PatchRequest} {after : EditWorld}
      (waiting : before.edits.get? call = some ⟨request, .checked⟩)
      (appending : Appending ctx before call request after) :
      EditEffect ctx before (.append call) after
  | explained {call : Nat} {request : PatchRequest} {ops : List PatchOp} {refused : Failure}
      (waiting : before.edits.get? call = some ⟨request, .missed ops⟩) :
      EditEffect ctx before (.explain call)
        (before.become call ⟨request, .answered (.error refused)⟩)
  | recorded {call : Nat} {request : PatchRequest} {inserted : Bool}
      (waiting : before.edits.get? call = some ⟨request, .appended⟩) :
      EditEffect ctx before (.record call inserted)
        (before.become call
          ⟨request, .answered (if inserted then .ok () else .error auditFailure)⟩)

theorem editStep_effect {step : EditStep} (stepped : editStep ctx before step = some after) :
    EditEffect ctx before step after := by
  cases step with simp only [editStep] at stepped
  | store input =>
      obtain ⟨⟨label, next⟩, acted, rfl⟩ := Option.map_eq_some_iff.mp stepped
      exact .stored (act_effect acted).2
  | receive call request =>
      split at stepped
      · cases stepped
      · next free =>
          cases stepped
          exact .received free
  | append call =>
      split at stepped
      · next request waiting =>
          cases stepped
          exact .appended waiting (appending_cases request)
      · cases stepped
  | explain call =>
      split at stepped
      · next request ops waiting =>
          cases stepped
          exact .explained waiting
      · cases stepped
  | record call inserted =>
      split at stepped
      · next request waiting =>
          cases stepped
          exact .recorded waiting
      · cases stepped

theorem grown_step {step : EditStep} (stepped : editStep ctx before step = some after)
    (present : before.row changesetId = some row) : Grown changesetId row.patch after := by
  have unchanged : Grown changesetId row.patch before := ⟨row, present, List.prefix_rfl⟩
  cases editStep_effect stepped with
  | stored effect => exact grown_effect effect present
  | received _ | explained _ | recorded _ => exact unchanged
  | appended _ appending =>
      cases appending with
      | left _ => exact unchanged
      | appended _ stored _ => exact grown_set stored (List.prefix_append _ _) present

theorem grown_run {start final : EditWorld} {history : List EditEvent} {patch : List PatchOp}
    (run : Follows (fun before step after => editStep ctx before step = some after)
      start history final)
    (present : Grown changesetId patch start) : Grown changesetId patch final := by
  refine run.invariant _ present ?_
  intro before step after stepped ⟨row, stored, first⟩
  exact Grown.trans first (grown_step stepped stored)

end Steps

end Api

end Barycenter
