import Barycenter.Store.LinearHistory

/-!
# What a commit commits

A commit does not write the model of its plan: it applies the patch of the
changeset again.  As long as no patch changes between the reading of a plan and
its sealing, and no plan is inserted for a changeset that has been discarded,
the two models are the same and the changeset is sealed.
-/

namespace Barycenter

namespace Store

open Config

/-- The model that a patch leads to over the present tables. -/
def Leads (ctx : StoreContext) (db : ConfigDb) (ops : List PatchOp) (model : Model) : Prop :=
  ∃ applied, candidate ctx db.tables ops = .ok (applied, model)

/-- A plan that nobody has consumed belongs to a changeset over the same base,
and that changeset is not open. -/
def PlansClosed (db : ConfigDb) : Prop :=
  ∀ planId plan, db.plans.get? planId = some plan → plan.state = .planned →
    ∃ changesetId row, plan.changesetId = some changesetId ∧
      db.changesets.get? changesetId = some row ∧
      row.baseRevision = plan.baseRevision ∧ row.state ≠ .opened

theorem planned_of_expire {changesetId planId : String} {plans : OrderedMap String PlanRow}
    {plan : PlanRow} (found : (expireAll changesetId plans).get? planId = some plan)
    (planned : plan.state = .planned) :
    plans.get? planId = some plan ∧ plan.changesetId ≠ some changesetId := by
  rw [get?_expireAll] at found
  obtain ⟨old, stored, same⟩ := Option.map_eq_some_iff.mp found
  by_cases doomed : old.plannedOf changesetId = true
  · rw [if_pos doomed] at same
    rw [← same] at planned
    cases planned
  · rw [if_neg doomed] at same
    subst same
    refine ⟨stored, fun owner => doomed ?_⟩
    simp [PlanRow.plannedOf, owner, planned]

theorem planned_of_set {plans : OrderedMap String PlanRow} {planId other : String}
    {plan row : PlanRow} (found : (plans.set other row).get? planId = some plan)
    (planned : plan.state = .planned) (consumed : row.state ≠ .planned) :
    plans.get? planId = some plan := by
  rw [OrderedMap.get?_set] at found
  split at found
  · exact (consumed (Option.some.inj found ▸ planned)).elim
  · exact found

section Steps

variable {ctx : StoreContext} {s next : StoreSystem} {action : StoreAction}

theorem head_cases (linear : Linear s.db) (effect : Effect ctx s action next) :
    (next.db.head = s.db.head ∧ next.db.tables = s.db.tables) ∨
      (s.db.head < next.db.head ∧ next.planning = s.planning) := by
  have above := Nat.lt_succ_of_le linear.headDrawn
  cases effect with
  | changed change =>
      cases change with
      | committed | rolledBack => exact .inr ⟨above, rfl⟩
      | _ => exact .inl ⟨rfl, rfl⟩
  | _ => exact .inl ⟨rfl, rfl⟩

structure Sealing (s : StoreSystem) (action : StoreAction) (planId : String)
    (plan : PlanRow) where
  call : Nat
  now : Nat
  reading : PlanCall
  model : Model
  changeset : ChangesetRow
  named : action = .planSeal call planId now
  calling : s.planning.get? call = some reading
  dried : reading.model = some model
  stored : s.db.changesets.get? reading.changesetId = some changeset
  inserted : plan =
    { changesetId := some reading.changesetId
      baseRevision := reading.baseRevision
      model := model
      expiresAt := now + planTtlMs }

variable {planId : String} {plan : PlanRow}

theorem planned_cases (effect : Effect ctx s action next)
    (found : next.db.plans.get? planId = some plan) (planned : plan.state = .planned) :
    s.db.plans.get? planId = some plan ∨ Nonempty (Sealing s action planId plan) := by
  cases effect with
  | drew revisions epochs | begun stored | tried calling outcome | dropped revisions epochs =>
      exact .inl found
  | @sealedPlan call now sealedId reading model changeset calling dried stored unplanned =>
      rw [OrderedMap.get?_set] at found
      split at found
      · rename_i same
        subst same
        cases found
        exact .inr ⟨⟨call, now, reading, model, changeset, rfl, calling, dried, stored, rfl⟩⟩
      · exact .inl found
  | changed change =>
      cases change with
      | created known fresh | patched stored opened => exact .inl found
      | reopened stored closed | discarded stored live =>
          exact .inl (planned_of_expire found planned).1
      | committed consumed owner unused fresh current stored tried unwritten
        | rolledBack source past decoded tried unwritten unplanned
        | replanned source decoded unplanned =>
          exact .inl (planned_of_set found planned (by simp))

/-- What a row keeps while a plan of its changeset is planned. -/
structure Kept (before after : ChangesetRow) : Prop where
  patch : after.patch = before.patch
  base : after.baseRevision = before.baseRevision
  closed : after.state ≠ .opened
  undiscarded : after.state = .discarded → before.state = .discarded

variable {row : ChangesetRow}

theorem Kept.same (closed : row.state ≠ .opened) : Kept row row :=
  ⟨rfl, rfl, closed, id⟩

variable {changesetId : String}

theorem kept_of_set {changesets : OrderedMap String ChangesetRow}
    {other : String} {new old : ChangesetRow}
    (found : changesets.get? changesetId = some row) (closed : row.state ≠ .opened)
    (stored : changesets.get? other = some old)
    (kept : other = changesetId → old.state ≠ .opened → Kept old new) :
    ∃ after, (changesets.set other new).get? changesetId = some after ∧ Kept row after := by
  rw [OrderedMap.get?_set]
  split
  · rename_i same
    subst same
    cases stored.symm.trans found
    exact ⟨new, rfl, kept rfl closed⟩
  · exact ⟨row, found, .same closed⟩

/-- As long as a plan of it is planned, the patch of a changeset stays and
nobody discards it. -/
theorem changeset_kept (effect : Effect ctx s action next)
    (still : next.db.plans.get? planId = some plan) (planned : plan.state = .planned)
    (owner : plan.changesetId = some changesetId)
    (found : s.db.changesets.get? changesetId = some row) (closed : row.state ≠ .opened) :
    ∃ after, next.db.changesets.get? changesetId = some after ∧ Kept row after := by
  have same : ∃ after, s.db.changesets.get? changesetId = some after ∧ Kept row after :=
    ⟨row, found, .same closed⟩
  cases effect with
  | drew revisions epochs | begun stored | tried calling outcome | dropped revisions epochs =>
      exact same
  | sealedPlan calling dried stored unplanned =>
      split
      · exact kept_of_set found closed stored fun _ _ => ⟨rfl, rfl, by simp, by simp⟩
      · exact same
  | changed change =>
      cases change with
      | @created newId baseRevision known fresh =>
          have different : newId ≠ changesetId := by
            rintro rfl
            rw [found] at fresh
            cases fresh
          exact ⟨row, by rw [OrderedMap.get?_set_other _ _ different, found], .same closed⟩
      | patched stored opened =>
          exact kept_of_set found closed stored fun _ notOpened =>
            (notOpened opened).elim
      | reopened stored sealed | discarded stored live =>
          have spared := (planned_of_expire still planned).2
          exact kept_of_set found closed stored fun eq _ => (spared (eq ▸ owner)).elim
      | committed consumed owner unused fresh current stored tried unwritten =>
          exact kept_of_set found closed stored fun _ _ => ⟨rfl, rfl, by simp, by simp⟩
      | rolledBack source past decoded tried unwritten unplanned
        | replanned source decoded unplanned => exact same

/-! ## Invariants -/

/-- A base is not above the head, nor is what a plan in the making has seen; and
while the head is at its base, such a plan holds what its operations lead to. -/
structure Planning (ctx : StoreContext) (s : StoreSystem) : Prop where
  basesBelow : ∀ changesetId row, s.db.changesets.get? changesetId = some row →
    row.baseRevision ≤ s.db.head
  callBase : ∀ call reading, s.planning.get? call = some reading →
    ∃ row, s.db.changesets.get? reading.changesetId = some row ∧
      row.baseRevision = reading.baseRevision
  callSeen : ∀ call reading, s.planning.get? call = some reading →
    reading.baseRevision ≤ reading.seenHead ∧ reading.seenHead ≤ s.db.head
  callModel : ∀ call reading model, s.planning.get? call = some reading →
    reading.model = some model → reading.baseRevision = s.db.head →
      Leads ctx s.db reading.ops model

theorem changeset_grows (effect : Effect ctx s action next)
    (found : s.db.changesets.get? changesetId = some row) :
    ∃ after, next.db.changesets.get? changesetId = some after ∧
      after.baseRevision = row.baseRevision ∧ row.patch ⊆ after.patch := by
  have set {other : String} {old new : ChangesetRow}
      (stored : s.db.changesets.get? other = some old)
      (same : new.baseRevision = old.baseRevision) (grown : old.patch ⊆ new.patch) :
      ∃ after, (s.db.changesets.set other new).get? changesetId = some after ∧
        after.baseRevision = row.baseRevision ∧ row.patch ⊆ after.patch := by
    rw [OrderedMap.get?_set]
    split
    · rename_i eq
      subst eq
      cases stored.symm.trans found
      exact ⟨new, rfl, same, grown⟩
    · exact ⟨row, found, rfl, List.Subset.refl _⟩
  have kept : ∃ after, s.db.changesets.get? changesetId = some after ∧
      after.baseRevision = row.baseRevision ∧ row.patch ⊆ after.patch :=
    ⟨row, found, rfl, List.Subset.refl _⟩
  cases effect with
  | drew revisions epochs | begun stored | tried calling outcome | dropped revisions epochs =>
      exact kept
  | sealedPlan calling dried stored unplanned =>
      dsimp only
      split
      · exact set stored rfl (List.Subset.refl _)
      · exact kept
  | changed change =>
      cases change with
      | @created newId baseRevision known fresh =>
          have different : newId ≠ changesetId := by
            rintro rfl
            rw [found] at fresh
            cases fresh
          exact ⟨row, by rw [OrderedMap.get?_set_other _ _ different, found], rfl,
            List.Subset.refl _⟩
      | patched stored opened => exact set stored rfl (List.subset_append_left _ _)
      | reopened stored sealed | discarded stored live => exact set stored rfl (List.Subset.refl _)
      | committed consumed owner unused fresh current stored tried unwritten =>
          exact set stored rfl (List.Subset.refl _)
      | rolledBack source past decoded tried unwritten unplanned
        | replanned source decoded unplanned => exact kept

theorem base_kept (effect : Effect ctx s action next)
    (found : s.db.changesets.get? changesetId = some row) :
    ∃ after, next.db.changesets.get? changesetId = some after ∧
      after.baseRevision = row.baseRevision := by
  obtain ⟨after, stored, base, _⟩ := changeset_grows effect found
  exact ⟨after, stored, base⟩

/-- Where a row comes from: a changeset over the same base, and a commit moves
the head; or the row is a new changeset over a revision. -/
theorem row_origin (linear : Linear s.db) (effect : Effect ctx s action next)
    (found : next.db.changesets.get? changesetId = some row) :
    (∃ before, s.db.changesets.get? changesetId = some before ∧
        before.baseRevision = row.baseRevision ∧
        (row.state = .committed → before.state = .committed ∨ s.db.head < next.db.head)) ∨
      row.state = .opened ∧
        ∃ revision, s.db.revisions.get? row.baseRevision = some revision := by
  have same : (there : s.db.changesets.get? changesetId = some row) →
      ∃ before, s.db.changesets.get? changesetId = some before ∧
        before.baseRevision = row.baseRevision ∧
        (row.state = .committed → before.state = .committed ∨ s.db.head < next.db.head) :=
    fun there => ⟨row, there, rfl, .inl⟩
  have set {other : String} {old new : ChangesetRow}
      (stored : s.db.changesets.get? other = some old)
      (there : (s.db.changesets.set other new).get? changesetId = some row)
      (base : new.baseRevision = old.baseRevision)
      (state : new.state ≠ .committed ∨ s.db.head < next.db.head) :
      ∃ before, s.db.changesets.get? changesetId = some before ∧
        before.baseRevision = row.baseRevision ∧
        (row.state = .committed → before.state = .committed ∨ s.db.head < next.db.head) := by
    rw [OrderedMap.get?_set] at there
    split at there
    · rename_i eq
      subst eq
      cases there
      exact ⟨old, stored, base.symm, fun done => .inr (state.resolve_left fun not => not done)⟩
    · exact same there
  cases effect with
  | drew revisions epochs | begun stored | tried calling outcome | dropped revisions epochs =>
      exact .inl (same found)
  | sealedPlan calling dried stored unplanned =>
      split at found
      · exact .inl (set stored found rfl (.inl (by simp)))
      · exact .inl (same found)
  | changed change =>
      cases change with
      | @created newId baseRevision known fresh =>
          rw [OrderedMap.get?_set] at found
          split at found
          · cases found
            exact .inr ⟨rfl, Option.isSome_iff_exists.mp known⟩
          · exact .inl (same found)
      | patched stored opened => exact .inl (set stored found rfl (.inl (by simp [opened])))
      | reopened stored sealed | discarded stored live =>
          exact .inl (set stored found rfl (.inl (by simp)))
      | committed consumed owner unused fresh current stored tried unwritten =>
          exact .inl (set stored found rfl (.inr (Nat.lt_succ_of_le linear.headDrawn)))
      | rolledBack source past decoded tried unwritten unplanned
        | replanned source decoded unplanned => exact .inl (same found)

theorem call_cases {call : Nat} {reading : PlanCall}
    (effect : Effect ctx s action next)
    (calling : next.planning.get? call = some reading) :
    s.planning.get? call = some reading ∨
      (∃ row, s.db.changesets.get? reading.changesetId = some row ∧
        row.baseRevision = reading.baseRevision ∧ reading.seenHead = s.db.head ∧
          reading.model = none) ∨
      ∃ old torn model, s.planning.get? call = some old ∧
        dryRun ctx s old torn = .ok model ∧ reading = { old with model := some model } := by
  have erased {other : Nat} (calling : (s.planning.erase other).get? call = some reading) :
      s.planning.get? call = some reading := by
    rw [OrderedMap.get?_erase] at calling
    split at calling
    · cases calling
    · exact calling
  cases effect with
  | drew revisions epochs | changed change => exact .inl calling
  | @begun other changesetId changeset stored =>
      rw [OrderedMap.get?_set] at calling
      split at calling
      · cases calling
        exact .inr (.inl ⟨changeset, stored, rfl, rfl, rfl⟩)
      · exact .inl calling
  | @tried other torn model old stored outcome =>
      rw [OrderedMap.get?_set] at calling
      split at calling
      · rename_i same
        subst same
        cases calling
        exact .inr (.inr ⟨old, torn, model, stored, outcome, rfl⟩)
      · exact .inl calling
  | dropped revisions epochs | sealedPlan stored dried row unplanned => exact .inl (erased calling)

theorem leads_of_dryRun {reading : PlanCall} {torn model : Model}
    (outcome : dryRun ctx s reading torn = .ok model) (still : s.db.head = reading.seenHead) :
    Leads ctx s.db reading.ops model := by
  rw [dryRun, if_pos still, mapError_store_ok, Outcome.map_ok] at outcome
  obtain ⟨⟨applied, _⟩, tried, rfl⟩ := outcome
  exact ⟨applied, tried⟩

theorem Planning.effect (planning : Planning ctx s) (linear : Linear s.db)
    (effect : Effect ctx s action next) : Planning ctx next := by
  have raised : s.db.head ≤ next.db.head := by
    rcases head_cases linear effect with ⟨same, _⟩ | ⟨above, _⟩
    · exact Nat.le_of_eq same.symm
    · exact Nat.le_of_lt above
  constructor
  case basesBelow =>
    intro changesetId row found
    rcases row_origin linear effect found with ⟨before, stored, same, _⟩ | ⟨_, revision, known⟩
    · exact same ▸ Nat.le_trans (planning.basesBelow changesetId before stored) raised
    · exact Nat.le_trans (linear.newest row.baseRevision revision known) raised
  case callBase =>
    intro call reading calling
    have kept {row : ChangesetRow}
        (stored : s.db.changesets.get? reading.changesetId = some row)
        (same : row.baseRevision = reading.baseRevision) :
        ∃ row, next.db.changesets.get? reading.changesetId = some row ∧
          row.baseRevision = reading.baseRevision := by
      obtain ⟨after, found, base⟩ := base_kept effect stored
      exact ⟨after, found, base.trans same⟩
    rcases call_cases effect calling with old | ⟨row, stored, same, _, _⟩ | new
    · obtain ⟨row, stored, same⟩ := planning.callBase call reading old
      exact kept stored same
    · exact kept stored same
    · obtain ⟨old, torn, model, stored, outcome, rfl⟩ := new
      obtain ⟨row, found, same⟩ := planning.callBase call old stored
      exact kept found same
  case callSeen =>
    intro call reading calling
    rcases call_cases effect calling with old | ⟨row, stored, same, seen, _⟩ | new
    · obtain ⟨below, seen⟩ := planning.callSeen call reading old
      exact ⟨below, Nat.le_trans seen raised⟩
    · exact ⟨same ▸ seen ▸ planning.basesBelow _ row stored, seen ▸ raised⟩
    · obtain ⟨old, torn, model, stored, outcome, rfl⟩ := new
      obtain ⟨below, seen⟩ := planning.callSeen call old stored
      exact ⟨below, Nat.le_trans seen raised⟩
  case callModel =>
    intro call reading model calling dried current
    rcases head_cases linear effect with ⟨sameHead, sameTables⟩ | ⟨above, samePlanning⟩
    · rw [Leads, sameTables]
      rcases call_cases effect calling with old | ⟨row, stored, same, seen, none⟩ | new
      · exact planning.callModel call reading model old dried (current.trans sameHead)
      · rw [none] at dried
        cases dried
      · obtain ⟨old, torn, result, stored, outcome, rfl⟩ := new
        cases dried
        obtain ⟨below, seen⟩ := planning.callSeen call old stored
        have atBase : old.baseRevision = s.db.head := current.trans sameHead
        exact leads_of_dryRun outcome (Nat.le_antisymm (atBase ▸ below) seen)
    · rw [samePlanning] at calling
      obtain ⟨below, seen⟩ := planning.callSeen call reading calling
      rw [current] at below
      exact (Nat.not_le_of_lt above (Nat.le_trans below seen)).elim

theorem row_of_sealing (effect : Effect ctx s action next) (sealing : Sealing s action planId plan)
    (found : next.db.plans.get? planId = some plan)
    (fresh : s.db.plans.get? planId ≠ some plan) :
    ∃ row, next.db.changesets.get? sealing.reading.changesetId = some row ∧
      row.patch = sealing.changeset.patch ∧
      row.baseRevision = sealing.changeset.baseRevision ∧
      row.state = if sealing.changeset.state.live then .sealed else sealing.changeset.state := by
  obtain ⟨call, now, reading, model, changeset, rfl, calling, dried, stored, inserted⟩ := sealing
  dsimp only
  cases effect with
  | drew revisions epochs | dropped revisions epochs => exact (fresh found).elim
  | changed change => cases change
  | @sealedPlan _ _ _ other _ row calls tried there unplanned =>
      cases calling.symm.trans calls
      cases stored.symm.trans there
      by_cases live : changeset.state.live = true
      · simp only [if_pos live]
        exact ⟨_, OrderedMap.get?_set_same .., rfl, rfl, rfl⟩
      · simp only [if_neg live]
        exact ⟨changeset, stored, rfl, rfl, rfl⟩

theorem PlansClosed.effect (closed : PlansClosed s.db) (planning : Planning ctx s)
    (effect : Effect ctx s action next) : PlansClosed next.db := by
  intro planId plan found planned
  by_cases old : s.db.plans.get? planId = some plan
  · obtain ⟨changesetId, row, owner, stored, base, notOpened⟩ := closed planId plan old planned
    obtain ⟨after, kept, same⟩ :=
      changeset_kept effect found planned owner stored notOpened
    exact ⟨changesetId, after, owner, kept, same.base.trans base, same.closed⟩
  · rcases planned_cases effect found planned with still | ⟨⟨sealing⟩⟩
    · exact (old still).elim
    · obtain ⟨row, stored, _, base, state⟩ := row_of_sealing effect sealing found old
      obtain ⟨read, readFound, readBase⟩ :=
        planning.callBase sealing.call sealing.reading sealing.calling
      cases sealing.stored.symm.trans readFound
      refine ⟨sealing.reading.changesetId, row, ?_, stored, ?_, ?_⟩
      · exact congrArg PlanRow.changesetId sealing.inserted
      · rw [base, readBase]
        exact (congrArg PlanRow.baseRevision sealing.inserted).symm
      · rw [state]
        split
        · simp
        · rename_i dead
          exact fun opened => dead (by simp [opened, ChangesetState.live])

/-! ## What was reviewed -/

/-- A plan that nobody has consumed holds the model that the patch of its
changeset leads to, as long as the head is at its base. -/
def Reviewed (ctx : StoreContext) (db : ConfigDb) : Prop :=
  ∀ planId plan changesetId row, db.plans.get? planId = some plan → plan.state = .planned →
    plan.changesetId = some changesetId → db.changesets.get? changesetId = some row →
      plan.baseRevision = db.head → Leads ctx db row.patch plan.model

/-- The plan that is sealed was made of the present patch of its changeset. -/
def SealsCurrent (s : StoreSystem) (action : StoreAction) : Prop :=
  ∀ call planId now reading row, action = .planSeal call planId now →
    s.planning.get? call = some reading →
      s.db.changesets.get? reading.changesetId = some row → row.patch = reading.ops

theorem Reviewed.effect (reviewed : Reviewed ctx s.db) (linear : Linear s.db)
    (closed : PlansClosed s.db) (planning : Planning ctx s) (current : SealsCurrent s action)
    (effect : Effect ctx s action next) : Reviewed ctx next.db := by
  intro planId plan changesetId row found planned owner stored atHead
  by_cases old : s.db.plans.get? planId = some plan
  · obtain ⟨owned, before, owner', there, base, notOpened⟩ := closed planId plan old planned
    cases owner.symm.trans owner'
    obtain ⟨after, kept, same⟩ := changeset_kept effect found planned owner there notOpened
    cases stored.symm.trans kept
    rcases head_cases linear effect with ⟨sameHead, sameTables⟩ | ⟨above, _⟩
    · have leads := reviewed planId plan changesetId before old planned owner there
        (atHead.trans sameHead)
      rw [Leads, sameTables, same.patch]
      exact leads
    · have below := planning.basesBelow changesetId before there
      rw [base, atHead] at below
      exact (Nat.not_le_of_lt above below).elim
  · rcases planned_cases effect found planned with still | ⟨⟨sealing⟩⟩
    · exact (old still).elim
    · obtain ⟨sealedRow, sealedStored, patch, _, _⟩ := row_of_sealing effect sealing found old
      have named := congrArg PlanRow.changesetId sealing.inserted
      cases owner.symm.trans named
      cases stored.symm.trans sealedStored
      have base : plan.baseRevision = sealing.reading.baseRevision :=
        congrArg PlanRow.baseRevision sealing.inserted
      have model : plan.model = sealing.model := congrArg PlanRow.model sealing.inserted
      have ops := current sealing.call planId sealing.now sealing.reading sealing.changeset
        sealing.named sealing.calling sealing.stored
      obtain ⟨below, seen⟩ := planning.callSeen sealing.call sealing.reading sealing.calling
      rcases head_cases linear effect with ⟨sameHead, sameTables⟩ | ⟨above, _⟩
      · have leads := planning.callModel sealing.call sealing.reading sealing.model
          sealing.calling sealing.dried (base.symm.trans (atHead.trans sameHead))
        rw [Leads, sameTables, patch, ops, model]
        exact leads
      · rw [← base, atHead] at below
        exact (Nat.not_le_of_lt above (Nat.le_trans below seen)).elim

/-- The event committed the changeset with the plan: it answers a revision, or
the head has moved and the record of it has failed. -/
def Commits (event : StoreEvent) (changesetId planId : String) : Prop :=
  (∃ now, event.label.1.action = .commit changesetId planId now) ∧
    ((∃ reply, event.label.2 = .ok reply) ∨ event.before.db.head ≠ event.after.db.head)

theorem change_of_commits {event : StoreEvent}
    (step : StoreStep ctx event.before event.label event.after)
    (commits : Commits event changesetId planId) :
    ∃ now, Change ctx event.before.db (.commit changesetId planId now) event.after.db := by
  obtain ⟨before, ⟨⟨action, audited⟩, answer⟩, after⟩ := event
  obtain ⟨⟨now, rfl⟩, made⟩ := commits
  have performed := Option.some.inj step
  refine ⟨now, ?_⟩
  rcases transacted_cases ⟨.commit changesetId planId now, audited⟩ before
      (commit ctx changesetId planId now) (fun reserved => .reserved reserved.1 reserved.2) with
    ⟨value, reached, succeeded, same⟩ | refused
  · obtain ⟨_, rfl⟩ := Prod.mk.inj (same.symm.trans performed)
    exact commit_change succeeded
  · obtain ⟨refusal, revisionSeq, epochSeq, _, _, same⟩ := refused
    obtain ⟨answered, rfl⟩ := Prod.mk.inj (same.symm.trans performed)
    rcases made with ⟨reply, answeredOk⟩ | moved
    · cases (Prod.mk.inj answered).2.trans answeredOk
    · exact (moved rfl).elim

/-- A committed plan is one that nobody had consumed, and the new revision holds
what the patch of its changeset leads to. -/
theorem facts_of_commits {event : StoreEvent}
    (step : StoreStep ctx event.before event.label event.after)
    (commits : Commits event changesetId planId) :
    ∃ plan row revision, event.before.db.plans.get? planId = some plan ∧
      plan.state = .planned ∧ plan.changesetId = some changesetId ∧
      plan.baseRevision = event.before.db.head ∧
      event.before.db.changesets.get? changesetId = some row ∧
      event.after.db.revisions.get? event.after.db.head = some revision ∧
      Leads ctx event.before.db row.patch revision.model := by
  obtain ⟨now, change⟩ := change_of_commits step commits
  generalize event.after.db = after at change ⊢
  cases change with
  | committed found owner unused fresh current stored tried unwritten =>
      exact ⟨_, _, _, found, unused, owner, current, stored,
        OrderedMap.get?_set_same .., _, tried⟩

theorem Leads.unique {db : ConfigDb} {ops : List PatchOp} {first second : Model}
    (firstly : Leads ctx db ops first) (secondly : Leads ctx db ops second) :
    first = second := by
  obtain ⟨firstApplied, firstTried⟩ := firstly
  obtain ⟨secondApplied, secondTried⟩ := secondly
  exact (Prod.mk.inj (Except.ok.inj (firstTried.symm.trans secondTried))).2

end Steps

/-! ## Runs -/

section Runs

variable {ctx : StoreContext}

/-- What every reachable state of the store satisfies. -/
structure Sound (ctx : StoreContext) (s : StoreSystem) : Prop where
  linear : Linear s.db
  planning : Planning ctx s
  closed : PlansClosed s.db

theorem sound_initial : Sound ctx {} := by
  refine ⟨linear_initial, ?_, ?_⟩
  · constructor <;> intros <;> simp_all
  · intro planId plan found
    simp at found

theorem Sound.step {before after : StoreSystem} {label : StoreLabel}
    (step : StoreStep ctx before label after) (sound : Sound ctx before) :
    Sound ctx after := by
  have effect : Effect ctx before label.1.action after := (act_effect step).2
  exact
    { linear := sound.linear.effect effect
      planning := sound.planning.effect sound.linear effect
      closed := sound.closed.effect sound.planning effect }

/-- Whenever every plan is sealed over the patch that it has tried out, a commit
stores the model of the plan. -/
theorem commit_stores_planned_model {history : List StoreEvent} {final : StoreSystem}
    (run : Follows (StoreStep ctx) {} history final)
    (current : ∀ event ∈ history, SealsCurrent event.before event.label.1.action) :
    ∀ event ∈ history, ∀ changesetId planId, Commits event changesetId planId →
      ∃ plan revision, event.before.db.plans.get? planId = some plan ∧
        event.after.db.revisions.get? event.after.db.head = some revision ∧
        revision.model = plan.model := by
  have throughout := run.throughout (fun s => Sound ctx s ∧ Reviewed ctx s.db)
    ⟨sound_initial, fun planId plan _ _ found => by simp at found⟩
    fun event member step ⟨sound, reviewed⟩ =>
      ⟨sound.step step, reviewed.effect sound.linear sound.closed sound.planning
        (current event member) (act_effect step).2⟩
  have steps := run.at_events trivial fun _ _ _ _ _ => trivial
  intro event member changesetId planId commits
  obtain ⟨plan, row, revision, found, planned, owner, atHead, stored, made, leads⟩ :=
    facts_of_commits (steps event member).1 commits
  have reviewed := (throughout event member).2 planId plan changesetId row found planned owner
    stored atHead
  exact ⟨plan, revision, found, made, leads.unique reviewed⟩

end Runs

/-- What a commit of the plan stores, next to what the plan holds. -/
def storedAndPlanned (event : StoreEvent) (planId : String) : Option (Model × Model) := do
  let revision ← event.after.db.revisions.get? event.after.db.head
  let plan ← event.before.db.plans.get? planId
  return (revision.model, plan.model)

/-- A pool that is put again while a plan is in the making is committed as it was
put then. -/
theorem late_patch_is_committed :
    ∃ history final, Follows (StoreStep plainContext) {} history final ∧
      ∃ event ∈ history, event.label.1.action = .commit "c" "p" 1 ∧
        event.label.2 = .ok (.reserved 2 1) ∧
          ∃ stored planned, storedAndPlanned event "p" = some (stored, planned) ∧
            stored ≠ planned := by
  obtain ⟨history, final, run, passed⟩ := exists_run_of_performInputs
    [⟨.createChangeset "c" 1, true⟩, ⟨.patchChangeset "c" [putsPool "app"], true⟩,
      ⟨.planRead 0 "c", true⟩, ⟨.planDryRun 0 {}, true⟩,
      ⟨.patchChangeset "c"
        [.put (.pool { key := "app", protocolClass := .http, algorithm := .leastConn })], true⟩,
      ⟨.planSeal 0 "p" 0, true⟩, ⟨.commit "c" "p" 1, true⟩]
    (fun history _ => history.any fun event =>
      decide (event.label.1.action = .commit "c" "p" 1) &&
        decide (event.label.2 = .ok (.reserved 2 1)) &&
          (storedAndPlanned event "p").any fun (stored, planned) => decide (stored ≠ planned))
    (by decide +kernel)
  refine ⟨history, final, run, ?_⟩
  simpa [and_assoc, Option.any_eq_true] using passed

/-- Whether the plan that is sealed was made of the present patch. -/
def sealsCurrent (s : StoreSystem) (action : StoreAction) : Bool :=
  match action with
  | .planSeal call _ _ =>
      (s.planning.get? call).all fun reading =>
        (s.db.changesets.get? reading.changesetId).all fun row =>
          decide (row.patch = reading.ops)
  | _ => true

theorem sealsCurrent_sound {s : StoreSystem} {action : StoreAction}
    (passed : sealsCurrent s action = true) : SealsCurrent s action := by
  rintro call planId now reading row rfl calling stored
  simpa [sealsCurrent, calling, stored] using passed

theorem commit_stores_planned_model_of_onePool :
    ∃ history final, Follows (StoreStep plainContext) {} history final ∧
      ∃ event ∈ history, Commits event "c" "p" ∧
        ∃ plan revision, event.before.db.plans.get? "p" = some plan ∧
          event.after.db.revisions.get? event.after.db.head = some revision ∧
          revision.model = plan.model := by
  obtain ⟨history, final, run, passed⟩ := exists_run_of_performInputs (onePoolInputs true)
    (fun history _ =>
      (history.all fun event => sealsCurrent event.before event.label.1.action) &&
        history.any fun event =>
          decide (event.label.1.action = .commit "c" "p" 1) &&
            decide (event.label.2 = .ok (.reserved 2 1)))
    (by decide +kernel)
  obtain ⟨current, ⟨event, member, committed, answered⟩⟩ := by
    simpa [and_assoc] using passed
  have commits : Commits event "c" "p" := ⟨⟨1, committed⟩, .inl ⟨_, answered⟩⟩
  exact ⟨history, final, run, event, member, commits,
    commit_stores_planned_model run (fun event member => sealsCurrent_sound (current event member))
      event member "c" "p" commits⟩

end Store

end Barycenter
