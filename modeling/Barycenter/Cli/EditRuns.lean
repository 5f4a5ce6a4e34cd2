import Barycenter.Cli.EditCalls

/-!
# What an edit changes in a run

The patch of a command comes from the model at the first reading and its base
from the second reading of the head; the commit only succeeds while the head is
that base.  So the revision differs from its parent in the edited field only if
the resource at the second reading still agrees, elsewhere, with the one that
was read first.
-/

namespace Barycenter

namespace Cli

open Config Store

section Statements

variable (ctx : StoreContext)

/-- The commit of a command has succeeded in this event. -/
def Succeeded (event : EditEvent) (request : EditRequest) (revision : Nat) : Prop :=
  ∃ call now audited,
    event.label = .own call (.commit now audited) ∧
      event.after.calls.get? call = some ⟨request, .answered (.ok revision)⟩

/-- The new revision is its parent with one field of one resource replaced. -/
def EditsOnly (event : EditEvent) (request : EditRequest) (revision : Nat) : Prop :=
  ∃ row parent old, event.after.store.db.revisions.get? revision = some row ∧
    row.parent = some parent ∧
    event.before.store.db.revisions.get? parent = some old ∧
    row.model = editedModel request old.model

/-- Whoever asks for the head the second time finds the resource there as it was
read, the edited field apart. -/
def FindsUnchanged (event : EditEvent) : Prop :=
  ∀ call request patch head, event.label = .own call .readHead →
    event.before.calls.get? call = some ⟨request, .head patch⟩ →
    event.before.store.db.revisions.get? event.before.store.db.head = some head →
      AgreesElsewhere request patch head.model

def Awaiting.changeset? : Awaiting → Option String
  | .patching changesetId _ => some changesetId
  | .planning changesetId => some changesetId
  | .drying changesetId => some changesetId
  | .sealing changesetId => some changesetId
  | .showing changesetId _ => some changesetId
  | .committing changesetId _ _ => some changesetId
  | _ => none

/-- Nobody else adds operations to the changeset of a command. -/
def LeavesChangesets (event : EditEvent) : Prop :=
  ∀ changesetId ops audited, event.label = .others ⟨.patchChangeset changesetId ops, audited⟩ →
    ∀ call edit, event.before.calls.get? call = some edit →
      edit.awaiting.changeset? ≠ some changesetId

end Statements

/-! ## What the store keeps -/

section Store

variable {ctx : StoreContext} {s next : StoreSystem} {action : StoreAction}

theorem revision_kept {revision : Nat} {row : RevisionRow} (effect : Effect ctx s action next)
    (found : s.db.revisions.get? revision = some row) :
    next.db.revisions.get? revision = some row := by
  have kept {target : Nat} {new : RevisionRow} (unwritten : s.db.revisions.get? target = none) :
      (s.db.revisions.set target new).get? revision = some row := by
    have different : target ≠ revision := by
      rintro rfl
      rw [found] at unwritten
      cases unwritten
    rw [OrderedMap.get?_set_other _ _ different, found]
  cases effect with
  | changed change =>
      cases change with
      | committed _ _ _ _ _ _ _ unwritten | rolledBack _ _ _ _ unwritten _ => exact kept unwritten
      | _ => exact found
  | _ => exact found

theorem changeset_unpatched {changesetId : String} {row : ChangesetRow}
    (effect : Effect ctx s action next)
    (unpatched : ∀ ops, action ≠ .patchChangeset changesetId ops)
    (found : s.db.changesets.get? changesetId = some row) :
    ∃ after, next.db.changesets.get? changesetId = some after ∧
      after.baseRevision = row.baseRevision ∧ after.patch = row.patch := by
  have set {other : String} {old new : ChangesetRow}
      (stored : s.db.changesets.get? other = some old)
      (base : new.baseRevision = old.baseRevision) (patch : new.patch = old.patch) :
      ∃ after, (s.db.changesets.set other new).get? changesetId = some after ∧
        after.baseRevision = row.baseRevision ∧ after.patch = row.patch := by
    rw [OrderedMap.get?_set]
    split
    · next same =>
        subst same
        cases stored.symm.trans found
        exact ⟨new, rfl, base, patch⟩
    · exact ⟨row, found, rfl, rfl⟩
  have kept : ∃ after, s.db.changesets.get? changesetId = some after ∧
      after.baseRevision = row.baseRevision ∧ after.patch = row.patch := ⟨row, found, rfl, rfl⟩
  cases effect with
  | drew _ _ | begun _ | tried _ _ | dropped _ _ => exact kept
  | sealedPlan _ _ stored _ =>
      dsimp only
      split
      · exact set stored rfl rfl
      · exact kept
  | changed change =>
      cases change with
      | @created newId _ _ fresh =>
          have different : newId ≠ changesetId := by
            rintro rfl
            rw [found] at fresh
            cases fresh
          exact ⟨row, by rw [OrderedMap.get?_set_other _ _ different, found], rfl, rfl⟩
      | @patched other ops old stored _ =>
          have different : other ≠ changesetId := by
            rintro rfl
            exact unpatched ops rfl
          exact ⟨row, by rw [OrderedMap.get?_set_other _ _ different, found], rfl, rfl⟩
      | reopened stored _ | discarded stored _ | committed _ _ _ _ _ stored _ _ =>
          exact set stored rfl rfl
      | rolledBack _ _ _ _ _ _ | replanned _ _ _ => exact kept

theorem planning_kept {call : Nat} {input : StoreInput} {label : StoreLabel}
    (acted : act ctx input s = some (label, next)) (apart : planNumber input.action ≠ some call) :
    next.planning.get? call = s.planning.get? call := by
  have elsewhere {moved : Nat} (different : some moved ≠ some call) : moved ≠ call :=
    fun same => different (congrArg some same)
  obtain ⟨action, audited⟩ := input
  cases action with simp only [act] at acted
  | planRead moved changesetId =>
      split at acted
      · cases acted
      · cases acted
        rfl
      · cases acted
        exact OrderedMap.get?_set_other _ _ (elsewhere apart)
  | planDryRun moved torn =>
      split at acted
      · cases acted
      · split at acted
        · cases acted
          exact (OrderedMap.get?_erase ..).trans (if_neg (elsewhere apart).symm)
        · cases acted
          exact OrderedMap.get?_set_other _ _ (elsewhere apart)
  | planSeal moved planId now =>
      split at acted
      · cases acted
      · split at acted
        · cases acted
        · cases acted
          exact (OrderedMap.get?_erase ..).trans (if_neg (elsewhere apart).symm)
  | _ =>
      cases acted
      rfl

/-- The revision at the head holds the model of the tables, and these are sound. -/
structure Mirrored (ctx : StoreContext) (db : ConfigDb) : Prop where
  atHead : ∃ row, db.revisions.get? db.head = some row ∧
    row.model = readModel ctx.collation db.tables
  sound : tablesKeeper.Sound db.tables

theorem candidate_ok {tables applied : Tables} {ops : List PatchOp} {model : Model}
    (tried : candidate ctx tables ops = .ok (applied, model)) :
    applyOps tables ops = .ok applied ∧ model = readModel ctx.collation applied := by
  simp only [candidate, Outcome.bind_ok, pure, Except.pure, Except.ok.injEq, Prod.mk.injEq] at tried
  obtain ⟨_, done, _, _, rfl, rfl⟩ := tried
  exact ⟨done, rfl⟩

theorem Mirrored.effect (mirrored : Mirrored ctx s.db) (effect : Effect ctx s action next) :
    Mirrored ctx next.db := by
  obtain ⟨atHead, sound⟩ := mirrored
  cases effect with
  | changed change =>
      cases change with
      | committed _ _ _ _ _ _ tried _ =>
          obtain ⟨done, rfl⟩ := candidate_ok tried
          exact ⟨⟨_, OrderedMap.get?_set_same .., rfl⟩, applyOps_sound sound done⟩
      | rolledBack _ _ _ tried _ _ =>
          obtain ⟨done, rfl⟩ := candidate_ok tried
          exact ⟨⟨_, OrderedMap.get?_set_same .., rfl⟩, applyOps_sound sound_empty done⟩
      | _ => exact ⟨atHead, sound⟩
  | _ => exact ⟨atHead, sound⟩

theorem mirrored_initial : Mirrored ctx ({} : ConfigDb) :=
  { atHead := by
      refine ⟨_, OrderedMap.get?_set_same .., ?_⟩
      simp [readModel, resourcesOf, Collation.inOrder, readAddressSets, OrderedMap.empty,
        OrderedMap.filterValues]
    sound := sound_empty }

end Store

/-! ## What a command has -/

section Working

/-- The patch was made of a model, and the resource at its base agrees with it. -/
structure Based (request : EditRequest) (patch : List PatchOp) (db : ConfigDb)
    (base : Nat) : Prop where
  made : ∃ seen, editPatch request seen = .ok patch
  agrees : ∃ row, db.revisions.get? base = some row ∧ AgreesElsewhere request patch row.model

def Carries (request : EditRequest) (db : ConfigDb) (changesetId : String) : Prop :=
  ∃ row, db.changesets.get? changesetId = some row ∧ Based request row.patch db row.baseRevision

def InMaking (s : StoreSystem) (call : Nat) (changesetId : String) : Prop :=
  ∃ reading, s.planning.get? call = some reading ∧ reading.changesetId = changesetId

/-- As long as nobody has consumed it, the plan is one of the changeset. -/
def PlanOf (changesetId : String) (plan : PlanRow) : Prop :=
  plan.state = .planned → plan.changesetId = some changesetId

def Working (s : StoreSystem) (call : Nat) (request : EditRequest) : Awaiting → Prop
  | .head patch => ∃ seen, editPatch request seen = .ok patch
  | .opening patch base => Based request patch s.db base
  | .patching changesetId patch =>
      ∃ row, s.db.changesets.get? changesetId = some row ∧ row.patch = [] ∧
        Based request patch s.db row.baseRevision
  | .planning changesetId => Carries request s.db changesetId
  | .drying changesetId => Carries request s.db changesetId ∧ InMaking s call changesetId
  | .sealing changesetId => Carries request s.db changesetId ∧ InMaking s call changesetId
  | .showing changesetId planId =>
      Carries request s.db changesetId ∧ Stored (PlanOf changesetId) planId s
  | .committing changesetId planId _ =>
      Carries request s.db changesetId ∧ Stored (PlanOf changesetId) planId s
  | .answered _ => True

variable {ctx : StoreContext} {s next : StoreSystem} {input : StoreInput} {label : StoreLabel}
  {request : EditRequest} {call : Nat} {awaiting : Awaiting}

theorem Based.later {patch : List PatchOp} {base : Nat} (based : Based request patch s.db base)
    (effect : Effect ctx s input.action next) : Based request patch next.db base := by
  obtain ⟨made, row, found, agrees⟩ := based
  exact ⟨made, row, revision_kept effect found, agrees⟩

variable {changesetId : String}

theorem Carries.later (carries : Carries request s.db changesetId)
    (effect : Effect ctx s input.action next)
    (unpatched : ∀ ops, input.action ≠ .patchChangeset changesetId ops) :
    Carries request next.db changesetId := by
  obtain ⟨row, found, based⟩ := carries
  obtain ⟨after, stored, base, patch⟩ := changeset_unpatched effect unpatched found
  refine ⟨after, stored, ?_⟩
  rw [base, patch]
  exact based.later effect

theorem Working.stored (working : Working s call request awaiting)
    (opened : awaiting.changeset? = some changesetId) :
    ∃ row, s.db.changesets.get? changesetId = some row := by
  cases awaiting with
  | patching _ _ | planning _ =>
      cases opened
      obtain ⟨row, found, _⟩ := working
      exact ⟨row, found⟩
  | drying _ | sealing _ | showing _ _ | committing _ _ _ =>
      cases opened
      obtain ⟨⟨row, found, _⟩, _⟩ := working
      exact ⟨row, found⟩
  | head _ | opening _ _ | answered _ => cases opened

theorem Working.later (working : Working s call request awaiting)
    (acted : act ctx input s = some (label, next))
    (apart : planNumber input.action ≠ some call)
    (unpatched : ∀ changesetId ops, awaiting.changeset? = some changesetId →
      input.action ≠ .patchChangeset changesetId ops) :
    Working next call request awaiting := by
  obtain ⟨same, effect⟩ := act_effect acted
  have step : StoreStep ctx s label next := by
    rw [StoreStep, same]
    exact acted
  have making {changesetId : String} (making : InMaking s call changesetId) :
      InMaking next call changesetId := by
    obtain ⟨reading, found, owner⟩ := making
    exact ⟨reading, (planning_kept acted apart).trans found, owner⟩
  have planned {changesetId planId : String} (stored : Stored (PlanOf changesetId) planId s) :
      Stored (PlanOf changesetId) planId next :=
    stored_step (fun _ consumed planned => absurd planned consumed) step stored
  cases awaiting with
  | head _ => exact working
  | opening _ _ => exact Based.later working effect
  | patching changesetId _ =>
      obtain ⟨row, found, empty, based⟩ := working
      obtain ⟨after, stored, base, patch⟩ :=
        changeset_unpatched effect (fun ops => unpatched changesetId ops rfl) found
      exact ⟨after, stored, patch.trans empty, base ▸ based.later effect⟩
  | planning changesetId =>
      exact Carries.later working effect fun ops => unpatched changesetId ops rfl
  | drying changesetId | sealing changesetId =>
      exact ⟨working.1.later effect fun ops => unpatched changesetId ops rfl, making working.2⟩
  | showing changesetId _ | committing changesetId _ _ =>
      exact ⟨working.1.later effect fun ops => unpatched changesetId ops rfl, planned working.2⟩
  | answered _ => trivial

theorem transacted_answered {α : Type} {script : StoreScript α} {reply : α → StoreReply}
    {answer : StoreReply} (performed : transacted ctx input s script reply = (label, next))
    (answered : label.2 = .ok answer) :
    ∃ value after, script s.db = (.ok value, after) ∧ next = { s with db := after } ∧
      answer = reply value := by
  rcases transacted_cases input s script reply with ⟨value, after, succeeded, same⟩ | refused
  · obtain ⟨rfl, rfl⟩ := Prod.mk.inj (same.symm.trans performed)
    dsimp only at answered
    split at answered
    · exact ⟨value, after, succeeded, rfl, (Except.ok.inj answered).symm⟩
    · cases answered
  · obtain ⟨refusal, _, _, _, _, same⟩ := refused
    obtain ⟨rfl, rfl⟩ := Prod.mk.inj (same.symm.trans performed)
    cases answered

variable {move : Move} {onward : StoreReply → Awaiting} {reply : StoreReply}

theorem Working.asked (working : Working s call request awaiting)
    (asking : askingMove call awaiting move = some (input, onward))
    (acted : act ctx input s = some (label, next)) (answered : label.2 = .ok reply) :
    Working next call request (onward reply) := by
  have effect := (act_effect acted).2
  unfold askingMove at asking
  split at asking
  · next patch base changesetId audited =>
      cases asking
      obtain ⟨_, _, succeeded, rfl, _⟩ := transacted_answered (Option.some.inj acted) answered
      have based : Based request patch s.db base := working
      cases @createChangeset_change ctx _ _ _ _ _ succeeded with
      | created _ _ => exact ⟨_, OrderedMap.get?_set_same .., rfl, based.later effect⟩
  · next changesetId patch audited =>
      cases asking
      obtain ⟨_, _, succeeded, rfl, _⟩ := transacted_answered (Option.some.inj acted) answered
      obtain ⟨row, found, empty, based⟩ := working
      cases @patchChangeset_change ctx _ _ _ _ _ succeeded with
      | @patched _ _ changeset stored _ =>
          obtain rfl := Option.some.inj (stored.symm.trans found)
          have whole : changeset.patch ++ patch = patch := by rw [empty, List.nil_append]
          exact ⟨_, OrderedMap.get?_set_same ..,
            (congrArg (Based request · _ _) whole).mpr (based.later effect)⟩
  · next changesetId =>
      cases asking
      have carries := Carries.later working effect fun _ same => by cases same
      refine ⟨carries, ?_⟩
      simp only [act] at acted
      split at acted
      · cases acted
      · cases acted
        cases answered
      · cases acted
        exact ⟨_, OrderedMap.get?_set_same .., rfl⟩
  · next changesetId torn =>
      cases asking
      have carries := working.1.later effect fun _ same => by cases same
      refine ⟨carries, ?_⟩
      obtain ⟨_, reading, found, owner⟩ := working
      simp only [act, found] at acted
      split at acted
      · cases acted
        cases answered
      · cases acted
        exact ⟨_, OrderedMap.get?_set_same .., owner⟩
  · next changesetId planId now audited =>
      cases asking
      have carries := working.1.later effect fun _ same => by cases same
      refine ⟨carries, ?_⟩
      obtain ⟨_, reading, found, rfl⟩ := working
      simp only [act, found] at acted
      split at acted
      · cases acted
      · obtain ⟨_, _, succeeded, rfl, _⟩ := transacted_answered (Option.some.inj acted) answered
        obtain ⟨_, _, _, rfl⟩ := sealAndInsert_ok succeeded
        exact ⟨_, OrderedMap.get?_set_same .., fun _ => rfl⟩
  · cases asking
    trivial
  · cases asking

theorem asking_number {other : Nat}
    (asking : askingMove call awaiting move = some (input, onward)) (different : call ≠ other) :
    planNumber input.action ≠ some other := by
  unfold askingMove at asking
  split at asking <;> cases asking <;> simp [planNumber, different]

theorem asking_patch
    {ops : List PatchOp} (asking : askingMove call awaiting move = some (input, onward))
    (patches : input.action = .patchChangeset changesetId ops) :
    awaiting.changeset? = some changesetId := by
  unfold askingMove at asking
  split at asking <;> cases asking <;> cases patches
  rfl

theorem asked_changeset (asking : askingMove call awaiting move = some (input, onward))
    (acted : act ctx input s = some (label, next)) (answered : label.2 = .ok reply)
    (opened : (onward reply).changeset? = some changesetId) :
    awaiting.changeset? = some changesetId ∨ s.db.changesets.get? changesetId = none := by
  unfold askingMove at asking
  split at asking
  · cases asking
    obtain ⟨_, _, succeeded, _⟩ := transacted_answered (Option.some.inj acted) answered
    cases opened
    cases @createChangeset_change ctx _ _ _ _ _ succeeded with
    | created _ fresh => exact .inr fresh
  all_goals cases asking
  all_goals
    first
    | exact .inl opened
    | cases opened

theorem commit_reserved {db after : ConfigDb} {planId : String} {now : Nat}
    {reserved : Nat × Nat}
    (succeeded : commit ctx changesetId planId now db = (.ok reserved, after)) :
    reserved.1 = db.revisionSeq + 1 := by
  simp only [commit, updateChangeset, updatePlan, moveHead, writeTables, supersedePlans,
    Script.bind_assoc_ok, Script.read_bind_ok, Script.found_bind_ok, Script.require_bind_ok,
    Script.write_bind_ok, Script.lift_bind_ok, Script.pure_ok, requireFresh_bind_ok,
    drawRevision_bind_ok, drawEpoch_bind_ok, insertRevision_bind_ok,
    mapError_store_ok] at succeeded
  obtain ⟨_, _, _, _, _, _, _, _, _, _, _, _, rfl, _⟩ := succeeded
  rfl

/-- A commit that is answered makes a revision of its parent, in which the edited
field is replaced. -/
theorem committed_edits {planId owner : String} {now : Nat} {audited : Bool}
    (sound : Sound ctx s) (mirrored : Mirrored ctx s.db)
    (carries : Carries request s.db changesetId)
    (planned : Stored (PlanOf changesetId) planId s)
    (acted : act ctx ⟨.commit owner planId now, audited⟩ s = some (label, next))
    (answered : label.2 = .ok reply) :
    ∃ row old, next.db.revisions.get? (revisionOf reply) = some row ∧
      row.parent = some s.db.head ∧ s.db.revisions.get? s.db.head = some old ∧
      row.model = editedModel request old.model := by
  obtain ⟨reserved, after, succeeded, rfl, rfl⟩ :=
    transacted_answered (Option.some.inj acted) answered
  have drawn := commit_reserved succeeded
  cases commit_change succeeded with
  | @committed _ _ _ plan changeset applied model found owned unused _ current stored tried _ =>
      obtain ⟨other, foundPlan, ofChangeset⟩ := planned
      cases found.symm.trans foundPlan
      cases owned.symm.trans (ofChangeset unused)
      obtain ⟨row, foundRow, ⟨seen, made⟩, head, foundHead, agrees⟩ := carries
      cases stored.symm.trans foundRow
      -- The plan is over the base of its changeset, and the head is still there.
      have base : changeset.baseRevision = s.db.head := by
        obtain ⟨closedId, closedRow, closedOwner, closedStored, same, _⟩ :=
          sound.closed planId plan found unused
        cases owned.symm.trans closedOwner
        cases stored.symm.trans closedStored
        exact same.trans current
      obtain ⟨old, foundOld, mirror⟩ := mirrored.atHead
      cases (base ▸ foundHead).symm.trans foundOld
      obtain ⟨done, rfl⟩ := candidate_ok tried
      let row : RevisionRow :=
        { parent := some s.db.head, model := readModel ctx.collation applied }
      refine ⟨row, head, ?_, rfl, foundOld, ?_⟩
      · change (s.db.revisions.set (s.db.revisionSeq + 1) _).get? reserved.1 = _
        rw [drawn]
        exact OrderedMap.get?_set_same ..
      · rw [mirror] at agrees ⊢
        exact readModel_editPatch mirrored.sound.valid made agrees done

end Working

/-! ## Runs -/

section Runs

variable {ctx : StoreContext}

structure Consistent (ctx : StoreContext) (world : EditWorld) : Prop where
  sound : Sound ctx world.store
  mirrored : Mirrored ctx world.store.db
  working : ∀ call edit, world.calls.get? call = some edit →
    Working world.store call edit.request edit.awaiting
  apart : ∀ first second one other changesetId,
    world.calls.get? first = some one → world.calls.get? second = some other →
    one.awaiting.changeset? = some changesetId → other.awaiting.changeset? = some changesetId →
    first = second

theorem consistent_initial : Consistent ctx {} :=
  { sound := sound_initial
    mirrored := mirrored_initial
    working := fun call edit found => by cases found
    apart := fun first second one other changesetId found => by cases found }

theorem get?_become {world : EditWorld} {call other : Nat} {edit : EditCall} :
    (world.become call edit).calls.get? other =
      if call = other then some edit else world.calls.get? other :=
  OrderedMap.get?_set ..

/-- A command that moves on has its old changeset, or one that no other command has. -/
theorem apart_become {world : EditWorld} {call : Nat} {edit : EditCall}
    (apart : ∀ first second one other changesetId,
      world.calls.get? first = some one → world.calls.get? second = some other →
      one.awaiting.changeset? = some changesetId → other.awaiting.changeset? = some changesetId →
      first = second)
    (alone : ∀ other held changesetId, world.calls.get? other = some held → call ≠ other →
      edit.awaiting.changeset? = some changesetId → held.awaiting.changeset? ≠ some changesetId) :
    ∀ first second one other changesetId,
      (world.become call edit).calls.get? first = some one →
      (world.become call edit).calls.get? second = some other →
      one.awaiting.changeset? = some changesetId → other.awaiting.changeset? = some changesetId →
      first = second := by
  intro first second one other changesetId here there has hasToo
  rw [get?_become] at here there
  split at here
  · next same =>
      cases here
      split at there
      · next again => exact same.symm.trans again
      · next different => exact absurd hasToo (alone _ _ _ there different has)
  · next different =>
      split at there
      · cases there
        exact absurd has (alone _ _ _ here different hasToo)
      · exact apart _ _ _ _ _ here there has hasToo

theorem Consistent.step {before after : EditWorld} {action : EditAction}
    (stepped : editStep ctx before action = some after)
    (finds : FindsUnchanged ⟨before, action, after⟩)
    (leaves : LeavesChangesets ⟨before, action, after⟩)
    (consistent : Consistent ctx before) : Consistent ctx after := by
  obtain ⟨sound, mirrored, working, apart⟩ := consistent
  have stored {input : StoreInput} {label : StoreLabel} {store : StoreSystem}
      (acted : act ctx input before.store = some (label, store)) :
      Sound ctx store ∧ Mirrored ctx store.db := by
    obtain ⟨same, effect⟩ := act_effect acted
    have step : StoreStep ctx before.store label store := by
      rw [StoreStep, same]
      exact acted
    exact ⟨sound.step step, mirrored.effect effect⟩
  cases editStep_effect ctx stepped with
  | @others input label store unclaimed acted =>
      obtain ⟨sound, mirrored⟩ := stored acted
      refine ⟨sound, mirrored, fun call edit found => ?_, apart⟩
      refine (working call edit found).later acted ?_ ?_
      · intro number
        simp [free, number, found] at unclaimed
      · rintro changesetId ops opened named
        obtain ⟨_, audited⟩ := input
        obtain rfl := named
        exact leaves changesetId ops audited rfl call edit found opened
  | @started call request fresh unused =>
      refine ⟨sound, mirrored, fun other edit found => ?_, apart_become apart ?_⟩
      · rw [get?_become] at found
        split at found
        · cases found
          change Working _ _ _ (started ctx before.store.db request)
          unfold started
          split
          · trivial
          · split
            · trivial
            · next patch made => exact ⟨_, made⟩
        · exact working other edit found
      · intro other held changesetId _ _ opened
        have none : (started ctx before.store.db request).changeset? = none := by
          unfold started
          split
          · rfl
          · split <;> rfl
        rw [none] at opened
        cases opened
  | @read call move edit awaiting waiting reading =>
      have has := working call edit waiting
      have moved : Working before.store call edit.request awaiting ∧
          ∀ changesetId, awaiting.changeset? = some changesetId →
            edit.awaiting.changeset? = some changesetId := by
        obtain ⟨request, stage⟩ := edit
        dsimp only at has reading ⊢
        unfold readingMove at reading
        split at reading
        · next patch =>
            cases reading
            obtain ⟨head, found, _⟩ := mirrored.atHead
            exact ⟨⟨has, head, found, finds call request patch head rfl waiting found⟩,
              fun _ opened => by cases opened⟩
        · next changesetId planId =>
            cases reading
            unfold ownerOf
            split
            · exact ⟨trivial, fun _ opened => by cases opened⟩
            · split
              · exact ⟨trivial, fun _ opened => by cases opened⟩
              · exact ⟨trivial, fun _ opened => by cases opened⟩
              · exact ⟨has, fun _ opened => opened⟩
        · cases reading
      refine ⟨sound, mirrored, fun other held found => ?_, apart_become apart ?_⟩
      · rw [get?_become] at found
        split at found
        · next same =>
            subst same
            cases found
            exact moved.1
        · exact working other held found
      · intro other held changesetId found different opened has
        exact different (apart _ _ _ _ _ waiting found (moved.2 changesetId opened) has)
  | @asked call move edit input next label store waiting asking acted =>
      obtain ⟨sound, mirrored⟩ := stored acted
      refine ⟨sound, mirrored, fun other held found => ?_, apart_become apart ?_⟩
      · rw [get?_become] at found
        split at found
        · next same =>
            subst same
            cases found
            cases answer : label.2 with
            | error failure => trivial
            | ok reply => exact (working call edit waiting).asked asking acted answer
        · next different =>
            refine (working other held found).later acted (asking_number asking different) ?_
            rintro changesetId ops opened patches
            exact different
              (apart _ _ _ _ _ waiting found (asking_patch asking patches) opened)
      · intro other held changesetId found different opened has
        cases answer : label.2 with
        | error failure =>
            rw [answer] at opened
            cases opened
        | ok reply =>
            rw [answer] at opened
            rcases asked_changeset asking acted answer opened with kept | fresh
            · exact different (apart _ _ _ _ _ waiting found kept has)
            · obtain ⟨row, stored⟩ := (working other held found).stored has
              rw [fresh] at stored
              cases stored

/-- Whenever the resource that a command was made of is still the same elsewhere
when it asks for the head, and its changeset is left to it, a commit that
succeeds replaces the edited field and nothing else. -/
theorem edits_replace_one_field {history : List EditEvent} {final : EditWorld}
    (run : EditRun ctx history final) (finds : ∀ event ∈ history, FindsUnchanged event)
    (leaves : ∀ event ∈ history, LeavesChangesets event) :
    ∀ event ∈ history, ∀ request revision, Succeeded event request revision →
      EditsOnly event request revision := by
  have consistent := run.throughout (Consistent ctx) consistent_initial
    fun event member stepped => Consistent.step stepped (finds event member) (leaves event member)
  have steps := @Follows.at_events _ _ _ _ _ _ (fun _ => True) run trivial fun _ _ _ _ _ => trivial
  rintro event member request revision ⟨call, now, audited, named, done⟩
  have stepped := (steps event member).1
  obtain ⟨sound, mirrored, working, _⟩ := consistent event member
  rw [named] at stepped
  unfold EditsOnly
  generalize event.after = after at stepped done ⊢
  cases editStep_effect ctx stepped with
  | @read _ _ edit _ _ reading =>
      unfold readingMove at reading
      split at reading <;> trivial
  | @asked _ _ edit input next label store waiting asking acted =>
      rw [get?_become, if_pos rfl] at done
      obtain ⟨rfl, answer⟩ := EditCall.mk.inj (Option.some.inj done)
      have has := working call edit waiting
      unfold askingMove at asking
      split at asking <;> try trivial
      next changesetId planId owner _ _ stage moved =>
        cases asking
        rw [stage] at has
        cases replied : label.2 with
        | error failure =>
            rw [replied] at answer
            cases answer
        | ok reply =>
            rw [replied] at answer
            cases Awaiting.answered.inj answer
            obtain ⟨row, old, made, parent, head, same⟩ :=
              committed_edits sound mirrored has.1 has.2 acted replied
            exact ⟨row, _, old, made, parent, head, same⟩

end Runs

/-! ## Concrete runs -/

def commitsOthers (call : Nat) (changesetId planId : String) (base : Nat) (ops : List PatchOp) :
    List EditAction :=
  [.createChangeset changesetId base, .patchChangeset changesetId ops,
    .planRead call changesetId, .planDryRun call {}, .planSeal call planId 0,
    .commit changesetId planId 0].map fun action => .others ⟨action, true⟩

def ownMoves (call : Nat) (moves : List Move) : List EditAction := moves.map (.own call)

/-- What a command does from the second reading of the head on. -/
def movesOn : List Move :=
  [.readHead, .openChangeset "edit" true, .sendPatch true, .planRead, .planDryRun {},
    .planSeal "p" 0 true, .showPlan, .commit 0 true]

def usesConsul : EditRequest :=
  .discovery "app" { source := some .consul, query := "api", port := "", emptyMeans := .keep }

def balancesByConnections : PatchOp :=
  .put (.pool { key := "app", protocolClass := .http, algorithm := .leastConn })

/-- A pool is committed, and a command finds its backends elsewhere. -/
def quietEdit : List EditAction :=
  commitsOthers 0 "base" "p0" 1 [putsPool "app"] ++ .start 7 usesConsul :: ownMoves 7 movesOn

/-- Between its two readings the algorithm of the pool is committed. -/
def overtakenEdit : List EditAction :=
  commitsOthers 0 "base" "p0" 1 [putsPool "app"] ++ .start 7 usesConsul ::
    (commitsOthers 1 "other" "p1" 2 [balancesByConnections] ++ ownMoves 7 movesOn)

def findsUnchanged (event : EditEvent) : Bool :=
  match event.label with
  | .own call .readHead =>
      match event.before.calls.get? call,
          event.before.store.db.revisions.get? event.before.store.db.head with
      | some ⟨request, .head patch⟩, some head =>
          decide (AgreesElsewhere request patch head.model)
      | _, _ => true
  | _ => true

theorem findsUnchanged_sound {event : EditEvent} (passed : findsUnchanged event = true) :
    FindsUnchanged event := by
  intro call request patch head label waiting found
  simpa [findsUnchanged, label, waiting, found] using passed

def leavesChangesets (event : EditEvent) : Bool :=
  match event.label with
  | .others ⟨.patchChangeset changesetId _, _⟩ =>
      event.before.calls.values.all fun edit =>
        decide (edit.awaiting.changeset? ≠ some changesetId)
  | _ => true

theorem leavesChangesets_sound {event : EditEvent} (passed : leavesChangesets event = true) :
    LeavesChangesets event := by
  intro changesetId ops audited label call edit waiting
  rw [leavesChangesets, label] at passed
  exact of_decide_eq_true (List.all_eq_true.mp passed edit
    (OrderedMap.mem_values_iff.mpr ⟨call, waiting⟩))

theorem edits_replace_one_field_quietEdit :
    ∃ history final, history.map Event.label = quietEdit ∧ EditRun plainContext history final ∧
      ∃ event ∈ history, Succeeded event usesConsul 3 ∧ EditsOnly event usesConsul 3 := by
  obtain ⟨history, final, run, walked, passed⟩ :=
    @follows_of_attempt _ _ (editStep plainContext) {} quietEdit
      (fun (history, _) =>
        history.all (fun event => findsUnchanged event && leavesChangesets event) &&
          history.any fun event =>
            decide (event.label = .own 7 (.commit 0 true)) &&
              decide (event.after.calls.get? 7 = some ⟨usesConsul, .answered (.ok 3)⟩))
      (by decide +kernel)
  obtain ⟨steady, reached⟩ := Bool.and_eq_true_iff.mp passed
  obtain ⟨event, member, answered⟩ := List.any_eq_true.mp reached
  obtain ⟨label, done⟩ := Bool.and_eq_true_iff.mp answered
  have checked (event : EditEvent) (member : event ∈ history) :
      findsUnchanged event = true ∧ leavesChangesets event = true :=
    Bool.and_eq_true_iff.mp (List.all_eq_true.mp steady event member)
  have succeeded : Succeeded event usesConsul 3 :=
    ⟨7, 0, true, of_decide_eq_true label, of_decide_eq_true done⟩
  exact ⟨history, final, walked, run, event, member, succeeded,
    edits_replace_one_field run
      (fun event member => findsUnchanged_sound (checked event member).1)
      (fun event member => leavesChangesets_sound (checked event member).2)
      event member usesConsul 3 succeeded⟩

/-- The algorithm that was committed in between is put back. -/
theorem overtaken_edit_undoes :
    ∃ history final, EditRun plainContext history final ∧
      (∀ event ∈ history, LeavesChangesets event) ∧
      ∃ event ∈ history, Succeeded event usesConsul 4 ∧ ¬ EditsOnly event usesConsul 4 := by
  obtain ⟨history, final, run, -, passed⟩ :=
    @follows_of_attempt _ _ (editStep plainContext) {} overtakenEdit
      (fun (history, _) =>
        history.all leavesChangesets &&
          history.any fun event =>
            decide (event.label = .own 7 (.commit 0 true)) &&
              (decide (event.after.calls.get? 7 = some ⟨usesConsul, .answered (.ok 4)⟩) &&
                ((event.after.store.db.revisions.get? 4).any fun row =>
                  decide (row.parent = some 3) &&
                    (event.before.store.db.revisions.get? 3).any fun old =>
                      decide (row.model ≠ editedModel usesConsul old.model))))
      (by decide +kernel)
  obtain ⟨apart, reached⟩ := Bool.and_eq_true_iff.mp passed
  obtain ⟨event, member, answered⟩ := List.any_eq_true.mp reached
  obtain ⟨label, answered⟩ := Bool.and_eq_true_iff.mp answered
  obtain ⟨done, differs⟩ := Bool.and_eq_true_iff.mp answered
  refine ⟨history, final, run,
    fun event member => leavesChangesets_sound (List.all_eq_true.mp apart event member),
    event, member, ⟨7, 0, true, of_decide_eq_true label, of_decide_eq_true done⟩, ?_⟩
  rintro ⟨row, parent, old, made, ofParent, found, same⟩
  obtain ⟨stored, holds, differs⟩ := (Option.any_eq_true _ _).mp differs
  cases made.symm.trans holds
  obtain ⟨third, differs⟩ := Bool.and_eq_true_iff.mp differs
  cases ofParent.symm.trans (of_decide_eq_true third)
  obtain ⟨older, holdsOld, differs⟩ := (Option.any_eq_true _ _).mp differs
  cases found.symm.trans holdsOld
  exact of_decide_eq_true differs same

end Cli

end Barycenter
