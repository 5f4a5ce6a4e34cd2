import Barycenter.Store.ConfigRuns

/-!
# What a step of the configuration store does

A step draws numbers at most, or it does exactly one of the things listed
here.  Every invariant is a case analysis over this list.
-/

namespace Barycenter

namespace Store

open Config

def ConfigDb.drawn (db : ConfigDb) (revisionSeq epochSeq : Nat) : ConfigDb :=
  { db with revisionSeq := revisionSeq, epochSeq := epochSeq }

/-! ## What can happen -/

section Effects

variable (ctx : StoreContext)

inductive Change (db : ConfigDb) : StoreAction → ConfigDb → Prop where
  | created {changesetId : String} {baseRevision : Nat}
      (known : (db.revisions.get? baseRevision).isSome = true)
      (fresh : db.changesets.get? changesetId = none) :
      Change db (.createChangeset changesetId baseRevision)
        { db with
          changesets := db.changesets.set changesetId { baseRevision := baseRevision } }
  | patched {changesetId : String} {ops : List PatchOp} {changeset : ChangesetRow}
      (stored : db.changesets.get? changesetId = some changeset)
      (opened : changeset.state = .opened) :
      Change db (.patchChangeset changesetId ops)
        { db with
          changesets := db.changesets.set changesetId
            { changeset with patch := changeset.patch ++ ops } }
  | reopened {changesetId : String} {changeset : ChangesetRow}
      (stored : db.changesets.get? changesetId = some changeset)
      (closed : changeset.state = .sealed) :
      Change db (.reopen changesetId)
        { db with
          changesets := db.changesets.set changesetId { changeset with state := .opened }
          plans := expireAll changesetId db.plans }
  | discarded {changesetId : String} {changeset : ChangesetRow}
      (stored : db.changesets.get? changesetId = some changeset)
      (live : changeset.state.live = true) :
      Change db (.discardChangeset changesetId)
        { db with
          changesets := db.changesets.set changesetId { changeset with state := .discarded }
          plans := expireAll changesetId db.plans }
  | committed {changesetId planId : String} {now : Nat} {plan : PlanRow}
      {changeset : ChangesetRow} {applied : Tables} {model : Model}
      (found : db.plans.get? planId = some plan)
      (owner : plan.changesetId = some changesetId)
      (unused : plan.state = .planned)
      (fresh : now ≤ plan.expiresAt)
      (current : plan.baseRevision = db.head)
      (stored : db.changesets.get? changesetId = some changeset)
      (tried : candidate ctx db.tables changeset.patch = .ok (applied, model))
      (unwritten : db.revisions.get? (db.revisionSeq + 1) = none) :
      Change db (.commit changesetId planId now)
        { tables := applied
          head := db.revisionSeq + 1
          revisions := db.revisions.set (db.revisionSeq + 1)
            { parent := some db.head, model := model }
          changesets := db.changesets.set changesetId
            { changeset with
              state := .committed
              committedRevision := some (db.revisionSeq + 1) }
          plans := db.plans.set planId
            { plan with
              state := .committed
              targetRevision := some (db.revisionSeq + 1)
              activationEpoch := some (db.epochSeq + 1) }
          revisionSeq := db.revisionSeq + 1
          epochSeq := db.epochSeq + 1 }
  | rolledBack {revision : Nat} {planId : String} {now : Nat} {source : RevisionRow}
      {model restored : Model} {applied : Tables}
      (found : db.revisions.get? revision = some source)
      (past : revision < db.head)
      (decoded : ctx.decodeModel source.model = some model)
      (tried : candidate ctx {} (opsOf model) = .ok (applied, restored))
      (unwritten : db.revisions.get? (db.revisionSeq + 1) = none)
      (unplanned : db.plans.get? planId = none) :
      Change db (.rollbackTo revision planId now)
        { db with
          tables := applied
          head := db.revisionSeq + 1
          revisions := db.revisions.set (db.revisionSeq + 1)
            { parent := some db.head, rollbackOf := some revision, model := restored }
          plans := db.plans.set planId
            { changesetId := none
              state := .committed
              baseRevision := db.head
              model := restored
              expiresAt := now + planTtlMs
              targetRevision := some (db.revisionSeq + 1)
              activationEpoch := some (db.epochSeq + 1) }
          revisionSeq := db.revisionSeq + 1
          epochSeq := db.epochSeq + 1 }
  | replanned {planId : String} {now : Nat} {source : RevisionRow} {model : Model}
      (found : db.revisions.get? db.head = some source)
      (decoded : ctx.decodeModel source.model = some model)
      (unplanned : db.plans.get? planId = none) :
      Change db (.planHeadAgain db.head planId now)
        { db with
          plans := db.plans.set planId
            { changesetId := none
              state := .committed
              baseRevision := db.head
              model := model
              expiresAt := now + planTtlMs
              targetRevision := some db.head
              activationEpoch := some (db.epochSeq + 1) }
          epochSeq := db.epochSeq + 1 }

inductive Effect (s : StoreSystem) : StoreAction → StoreSystem → Prop where
  | drew {action : StoreAction} {revisionSeq epochSeq : Nat}
      (revisions : s.db.revisionSeq ≤ revisionSeq) (epochs : s.db.epochSeq ≤ epochSeq) :
      Effect s action { s with db := s.db.drawn revisionSeq epochSeq }
  | changed {action : StoreAction} {after : ConfigDb} (change : Change ctx s.db action after) :
      Effect s action { s with db := after }
  | begun {call : Nat} {changesetId : String} {changeset : ChangesetRow}
      (stored : s.db.changesets.get? changesetId = some changeset) :
      Effect s (.planRead call changesetId)
        { s with
          planning := s.planning.set call
            { changesetId := changesetId
              baseRevision := changeset.baseRevision
              ops := changeset.patch
              seenHead := s.db.head } }
  | tried {call : Nat} {torn model : Model} {reading : PlanCall}
      (calling : s.planning.get? call = some reading)
      (outcome : dryRun ctx s reading torn = .ok model) :
      Effect s (.planDryRun call torn)
        { s with planning := s.planning.set call { reading with model := some model } }
  | dropped {action : StoreAction} {call revisionSeq epochSeq : Nat}
      (revisions : s.db.revisionSeq ≤ revisionSeq) (epochs : s.db.epochSeq ≤ epochSeq) :
      Effect s action
        { db := s.db.drawn revisionSeq epochSeq, planning := s.planning.erase call }
  | sealedPlan {call now : Nat} {planId : String} {reading : PlanCall} {model : Model}
      {changeset : ChangesetRow}
      (calling : s.planning.get? call = some reading)
      (dried : reading.model = some model)
      (stored : s.db.changesets.get? reading.changesetId = some changeset)
      (unplanned : s.db.plans.get? planId = none) :
      Effect s (.planSeal call planId now)
        { db :=
            { s.db with
              changesets :=
                if changeset.state.live then
                  s.db.changesets.set reading.changesetId { changeset with state := .sealed }
                else s.db.changesets
              plans := s.db.plans.set planId
                { changesetId := some reading.changesetId
                  baseRevision := reading.baseRevision
                  model := model
                  expiresAt := now + planTtlMs } }
          planning := s.planning.erase call }

end Effects

/-! ## Successful scripts -/

section Scripts

variable {ctx : StoreContext} {db after : ConfigDb} {changesetId planId : String}
  {revision epoch now : Nat} {done : Unit} {α : Type} {result : α}

section Rules

variable {next : Nat → StoreScript α} {further : Unit → StoreScript α}

theorem drawRevision_bind_ok :
    (drawRevision >>= next) db = (.ok result, after) ↔
      next (db.revisionSeq + 1) (db.withRevisionSeq (db.revisionSeq + 1)) =
        (.ok result, after) :=
  Iff.rfl

theorem drawEpoch_bind_ok :
    (drawEpoch >>= next) db = (.ok result, after) ↔
      next (db.epochSeq + 1) (db.withEpochSeq (db.epochSeq + 1)) = (.ok result, after) :=
  Iff.rfl

theorem insertRevision_bind_ok {row : RevisionRow} :
    (insertRevision revision row >>= further) db = (.ok result, after) ↔
      db.revisions.get? revision = none ∧
        further () (db.withRevision revision row) = (.ok result, after) := by
  simp only [insertRevision, Script.bind_assoc_ok, Script.read_bind_ok,
    Script.require_bind_ok, Script.write_bind_ok]

theorem insertPlan_ok {row : PlanRow} :
    insertPlan planId row db = (.ok done, after) ↔
      db.plans.get? planId = none ∧ db.withPlan planId row = after := by
  simp only [insertPlan, Script.read_bind_ok, Script.require_bind_ok, Script.write_ok]

theorem insertPlan_bind_ok {row : PlanRow} :
    (insertPlan planId row >>= further) db = (.ok result, after) ↔
      db.plans.get? planId = none ∧
        further () (db.withPlan planId row) = (.ok result, after) := by
  simp only [insertPlan, Script.bind_assoc_ok, Script.read_bind_ok,
    Script.require_bind_ok, Script.write_bind_ok]

theorem requireFresh_bind_ok {plan : PlanRow} :
    (requireFresh planId plan now >>= further) db = (.ok result, after) ↔
      now ≤ plan.expiresAt ∧ further () db = (.ok result, after) := by
  unfold requireFresh
  by_cases late : plan.expiresAt < now
  · simp [late, Nat.not_le.mpr late, Script.bind_ok]
  · simp [late, Nat.le_of_not_lt late]

theorem mapError_store_ok {β : Type} {outcome : Except StoreError β} {value : β} :
    outcome.mapError Failure.store = .ok value ↔ outcome = .ok value := by
  cases outcome <;> simp [Except.mapError]

end Rules

theorem createChangeset_change {baseRevision : Nat} {made : String}
    (succeeded : createChangeset changesetId baseRevision db = (.ok made, after)) :
    Change ctx db (.createChangeset changesetId baseRevision) after := by
  simp only [createChangeset, updateChangeset, Script.read_bind_ok, Script.require_bind_ok,
    Script.write_bind_ok, Script.pure_ok] at succeeded
  obtain ⟨known, fresh, _, rfl⟩ := succeeded
  exact .created known fresh

theorem patchChangeset_change {ops : List PatchOp}
    (succeeded : patchChangeset changesetId ops db = (.ok done, after)) :
    Change ctx db (.patchChangeset changesetId ops) after := by
  simp only [patchChangeset, updateChangeset, Script.read_bind_ok, Script.found_bind_ok,
    Script.require_bind_ok, Script.write_ok] at succeeded
  obtain ⟨changeset, stored, opened, _, rfl⟩ := succeeded
  exact .patched stored opened

theorem reopen_change
    (succeeded : reopen changesetId db = (.ok done, after)) :
    Change ctx db (.reopen changesetId) after := by
  simp only [reopen, updateChangeset, expirePlans, Script.read_bind_ok,
    Script.found_bind_ok, Script.require_bind_ok, Script.write_bind_ok,
    Script.write_ok] at succeeded
  obtain ⟨changeset, stored, closed, rfl⟩ := succeeded
  exact .reopened stored closed

theorem discardChangeset_change
    (succeeded : discardChangeset changesetId db = (.ok done, after)) :
    Change ctx db (.discardChangeset changesetId) after := by
  simp only [discardChangeset, updateChangeset, expirePlans, Script.read_bind_ok,
    Script.found_bind_ok, Script.require_bind_ok, Script.write_bind_ok,
    Script.write_ok] at succeeded
  obtain ⟨changeset, stored, live, rfl⟩ := succeeded
  exact .discarded stored live

theorem commit_change {reserved : Nat × Nat}
    (succeeded : commit ctx changesetId planId now db = (.ok reserved, after)) :
    Change ctx db (.commit changesetId planId now) after := by
  simp only [commit, updateChangeset, updatePlan, moveHead, writeTables, supersedePlans,
    Script.bind_assoc_ok, Script.read_bind_ok, Script.found_bind_ok, Script.require_bind_ok,
    Script.write_bind_ok, Script.lift_bind_ok, Script.pure_ok, requireFresh_bind_ok,
    drawRevision_bind_ok, drawEpoch_bind_ok, insertRevision_bind_ok,
    mapError_store_ok] at succeeded
  obtain ⟨plan, found, owner, unused, fresh, current, changeset, stored, ⟨applied, model⟩,
    tried, unwritten, _, _, rfl⟩ := succeeded
  exact .committed found owner unused fresh current stored tried unwritten

theorem rollbackTo_change {reserved : Nat × Nat}
    (succeeded : rollbackTo ctx revision planId now db = (.ok reserved, after)) :
    Change ctx db (.rollbackTo revision planId now) after := by
  simp only [rollbackTo, moveHead, writeTables, Script.read_bind_ok, Script.found_bind_ok,
    Script.require_bind_ok, Script.write_bind_ok, Script.lift_bind_ok, Script.pure_ok,
    drawRevision_bind_ok, drawEpoch_bind_ok, insertRevision_bind_ok, insertPlan_bind_ok,
    mapError_store_ok] at succeeded
  obtain ⟨source, found, past, model, decoded, ⟨applied, restored⟩, tried, unwritten,
    unplanned, _, rfl⟩ := succeeded
  exact .rolledBack found past decoded tried unwritten unplanned

theorem planHeadAgain_change
    (succeeded : planHeadAgain ctx revision planId now db = (.ok epoch, after)) :
    Change ctx db (.planHeadAgain revision planId now) after := by
  simp only [planHeadAgain, Script.read_bind_ok, Script.found_bind_ok,
    Script.require_bind_ok, Script.lift_bind_ok, Script.pure_ok, drawEpoch_bind_ok,
    insertPlan_bind_ok] at succeeded
  obtain ⟨source, found, model, decoded, _, _, rfl, unplanned, _, rfl⟩ := succeeded
  exact .replanned found decoded unplanned

theorem sealAndInsert_ok {baseRevision : Nat} {model : Model}
    (succeeded :
      sealAndInsert changesetId planId baseRevision model now db = (.ok done, after)) :
    ∃ changeset, db.changesets.get? changesetId = some changeset ∧
      db.plans.get? planId = none ∧
      { db with
        changesets :=
          if changeset.state.live then
            db.changesets.set changesetId { changeset with state := .sealed }
          else db.changesets
        plans := db.plans.set planId
          { changesetId := some changesetId
            baseRevision := baseRevision
            model := model
            expiresAt := now + planTtlMs } } = after := by
  simp only [sealAndInsert, Script.read_bind_ok, Script.found_bind_ok] at succeeded
  obtain ⟨changeset, stored, inserted⟩ := succeeded
  refine ⟨changeset, stored, ?_⟩
  unfold sealChangeset updateChangeset at inserted
  by_cases live : changeset.state.live = true
  · rw [if_pos live, Script.write_bind_ok, insertPlan_ok] at inserted
    rw [if_pos live]
    exact inserted
  · rw [if_neg live, Script.pure_bind_ok, insertPlan_ok] at inserted
    rw [if_neg live]
    exact inserted

end Scripts

/-! ## Steps -/

theorem undo_drawn (dialect : Dialect) (before reached : ConfigDb) :
    ∃ revisionSeq epochSeq, before.revisionSeq ≤ revisionSeq ∧ before.epochSeq ≤ epochSeq ∧
      ConfigDb.undo dialect before reached = before.drawn revisionSeq epochSeq := by
  cases dialect with
  | postgres => exact ⟨_, _, Nat.le_max_left _ _, Nat.le_max_left _ _, rfl⟩
  | sqlite => exact ⟨_, _, Nat.le_refl _, Nat.le_refl _, rfl⟩

section Steps

variable {ctx : StoreContext} {α : Type} {script : StoreScript α} {reply : α → StoreReply}
  {audited : Bool} {db after : ConfigDb} {answer : Except Failure StoreReply}

theorem inTransaction_cases
    (ended : inTransaction ctx script reply audited db = (answer, after)) :
    (∃ value, script db = (.ok value, after) ∧
        answer = if audited then .ok (reply value) else .error auditFailure) ∨
      ∃ refusal revisionSeq epochSeq, answer = .error refusal ∧
        db.revisionSeq ≤ revisionSeq ∧ db.epochSeq ≤ epochSeq ∧
        after = db.drawn revisionSeq epochSeq := by
  unfold inTransaction at ended
  cases outcome : Script.transact (ConfigDb.undo ctx.dialect) script db with
  | mk result reached =>
      rw [outcome] at ended
      cases result with
      | ok value =>
          obtain ⟨rfl, rfl⟩ := Prod.mk.inj ended
          exact .inl ⟨value, Script.transact_ok.mp outcome, rfl⟩
      | error refusal =>
          obtain ⟨rfl, rfl⟩ := Prod.mk.inj ended
          obtain ⟨revisionSeq, epochSeq, revisions, epochs, same⟩ :=
            undo_drawn ctx.dialect db (script db).2
          rw [Script.transact_error outcome] at same
          exact .inr ⟨refusal, revisionSeq, epochSeq, rfl, revisions, epochs, same⟩

theorem transacted_cases (input : StoreInput) (s : StoreSystem) (script : StoreScript α)
    (reply : α → StoreReply) :
    (∃ value after, script s.db = (.ok value, after) ∧
        transacted ctx input s script reply =
          ((input, if input.audited then .ok (reply value) else .error auditFailure),
            { s with db := after })) ∨
      ∃ refusal revisionSeq epochSeq,
        s.db.revisionSeq ≤ revisionSeq ∧ s.db.epochSeq ≤ epochSeq ∧
        transacted ctx input s script reply =
          ((input, .error refusal), { s with db := s.db.drawn revisionSeq epochSeq }) := by
  unfold transacted
  cases ended : inTransaction ctx script reply input.audited s.db with
  | mk answer after =>
      rcases inTransaction_cases ended with ⟨value, succeeded, rfl⟩ | refused
      · exact .inl ⟨value, after, succeeded, rfl⟩
      · obtain ⟨refusal, revisionSeq, epochSeq, rfl, revisions, epochs, rfl⟩ := refused
        exact .inr ⟨refusal, revisionSeq, epochSeq, revisions, epochs, rfl⟩

theorem transacted_effect {s : StoreSystem} {input : StoreInput}
    (changes : ∀ value reached, script s.db = (.ok value, reached) →
      Change ctx s.db input.action reached) :
    (transacted ctx input s script reply).1.1 = input ∧
      Effect ctx s input.action (transacted ctx input s script reply).2 := by
  rcases transacted_cases input s script reply with ⟨value, after, succeeded, same⟩ | refused
  · rw [same]
    exact ⟨rfl, .changed (changes value after succeeded)⟩
  · obtain ⟨refusal, revisionSeq, epochSeq, revisions, epochs, same⟩ := refused
    rw [same]
    exact ⟨rfl, .drew revisions epochs⟩

theorem readForPlan_ok {changesetId : String} {changeset : ChangesetRow}
    (succeeded : (readForPlan changesetId db).1 = .ok changeset) :
    db.changesets.get? changesetId = some changeset := by
  have ended : readForPlan changesetId db = (.ok changeset, (readForPlan changesetId db).2) :=
    Prod.ext succeeded rfl
  simp only [readForPlan, Script.read_bind_ok, Script.found_bind_ok, Script.require_bind_ok,
    Script.pure_ok] at ended
  obtain ⟨row, stored, _, rfl, _⟩ := ended
  exact stored

theorem act_effect {s next : StoreSystem} {input : StoreInput} {label : StoreLabel}
    (acted : act ctx input s = some (label, next)) :
    label.1 = input ∧ Effect ctx s input.action next := by
  obtain ⟨action, audited⟩ := input
  cases action with simp only [act] at acted
  | createChangeset changesetId baseRevision =>
      cases acted
      exact transacted_effect fun _ _ => createChangeset_change
  | patchChangeset changesetId ops =>
      cases acted
      exact transacted_effect fun _ _ => patchChangeset_change
  | planRead call changesetId =>
      split at acted
      · cases acted
      · cases acted
        exact ⟨rfl, .drew (Nat.le_refl _) (Nat.le_refl _)⟩
      · rename_i changeset free read
        cases acted
        exact ⟨rfl, .begun (readForPlan_ok read)⟩
  | planDryRun call torn =>
      split at acted
      · cases acted
      · rename_i reading calling
        split at acted
        · cases acted
          exact ⟨rfl, .dropped (Nat.le_refl _) (Nat.le_refl _)⟩
        · rename_i model outcome
          cases acted
          exact ⟨rfl, .tried calling outcome⟩
  | planSeal call planId now =>
      split at acted
      · cases acted
      · rename_i reading calling
        split at acted
        · cases acted
        · rename_i model dried
          have performed := Option.some.inj acted
          rcases @transacted_cases ctx Unit ⟨.planSeal call planId now, audited⟩
            { s with planning := s.planning.erase call }
            (sealAndInsert reading.changesetId planId reading.baseRevision model now)
            (fun _ => .done) with ⟨value, after, succeeded, same⟩ | refused
          · obtain ⟨rfl, rfl⟩ := Prod.mk.inj (same.symm.trans performed)
            obtain ⟨changeset, stored, unplanned, rfl⟩ := sealAndInsert_ok succeeded
            exact ⟨rfl, .sealedPlan calling dried stored unplanned⟩
          · obtain ⟨refusal, revisionSeq, epochSeq, revisions, epochs, same⟩ := refused
            obtain ⟨rfl, rfl⟩ := Prod.mk.inj (same.symm.trans performed)
            exact ⟨rfl, .dropped revisions epochs⟩
  | reopen changesetId =>
      cases acted
      exact transacted_effect fun _ _ => reopen_change
  | discardChangeset changesetId =>
      cases acted
      exact transacted_effect fun _ _ => discardChangeset_change
  | commit changesetId planId now =>
      cases acted
      exact transacted_effect fun _ _ => commit_change
  | rollbackTo revision planId now =>
      cases acted
      exact transacted_effect fun _ _ => rollbackTo_change
  | planHeadAgain revision planId now =>
      cases acted
      exact transacted_effect fun _ _ => planHeadAgain_change

end Steps

/-! ## Concrete runs -/

theorem follows_of_performInputs {ctx : StoreContext} {inputs : List StoreInput}
    {s final : StoreSystem} {history : List (Event StoreSystem StoreLabel)}
    (performed : performInputs ctx inputs s = some (history, final)) :
    Follows (StoreStep ctx) s history final := by
  refine (follows_of_execute (StoreStep ctx) Prod.fst ?_ performed).1
  intro input before label next acted
  obtain rfl := (act_effect acted).1
  exact ⟨acted, rfl⟩

def plainContext : StoreContext :=
  { dialect := .postgres
    collation := characterOrder
    assertApplicable := fun _ => .ok ()
    decodeModel := some }

theorem exists_run_of_performInputs (inputs : List StoreInput)
    (check : List (Event StoreSystem StoreLabel) → StoreSystem → Bool)
    (passed : (performInputs plainContext inputs {}).any
      (fun (history, final) => check history final) = true) :
    ∃ history final, Follows (StoreStep plainContext) {} history final ∧
      check history final = true := by
  obtain ⟨⟨history, final⟩, performed, checked⟩ := (Option.any_eq_true _ _).mp passed
  exact ⟨history, final, follows_of_performInputs performed, checked⟩

def putsPool (key : String) : PatchOp :=
  .put (.pool { key := key, protocolClass := .http, algorithm := .roundRobin })

end Store

end Barycenter
