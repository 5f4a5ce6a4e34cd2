import Barycenter.Control.RevisionSweep

/-!
# No revision is ever given up

Every revision but the first is the target of a plan that was consumed, and the
first one is the base of a changeset that is committed once there is a second.
A sweep deletes neither such a plan nor such a changeset, so it never finds a
revision that it may delete, and all references stay closed.
-/

namespace Barycenter.Control

open Config Store Dp

/-! ## What every revision is held by -/

def Known (db : ConfigDb) (revision : Nat) : Prop :=
  (db.revisions.get? revision).isSome = true

def CommittedChangeset (db : ConfigDb) (changesetId : String) (base : Nat) : Prop :=
  ∃ row, db.changesets.get? changesetId = some row ∧ row.state = .committed ∧
    row.baseRevision = base

structure Consumed (db : ConfigDb) (plan : PlanRow) : Prop where
  planned : plan.state ≠ .planned
  expired : plan.state ≠ .expired
  owner : ∀ changesetId ∈ plan.changesetId, ∃ base, CommittedChangeset db changesetId base

structure Anchored (db : ConfigDb) : Prop where
  positive : ∀ revision, Known db revision → 1 ≤ revision
  newest : ∀ revision, Known db revision → revision ≤ db.head
  head : Known db db.head
  drawn : db.head ≤ db.revisionSeq
  parents : ∀ revision row, db.revisions.get? revision = some row →
    ∀ parent ∈ row.parent, Known db parent
  sources : ∀ revision row, db.revisions.get? revision = some row →
    ∀ source ∈ row.rollbackOf, Known db source
  bases : ∀ changesetId row, db.changesets.get? changesetId = some row →
    Known db row.baseRevision
  committed : ∀ changesetId row, db.changesets.get? changesetId = some row →
    ∀ revision ∈ row.committedRevision, Known db revision
  planBases : ∀ planId plan, db.plans.get? planId = some plan → Known db plan.baseRevision
  targets : ∀ planId plan, db.plans.get? planId = some plan →
    ∀ revision ∈ plan.targetRevision, Known db revision
  consumed : ∀ planId plan, db.plans.get? planId = some plan →
    plan.targetRevision.isSome = true → Consumed db plan
  reserved : ∀ revision, Known db revision → revision ≠ 1 →
    ∃ planId plan, db.plans.get? planId = some plan ∧ plan.targetRevision = some revision
  root : db.head = 1 ∨ ∃ changesetId, CommittedChangeset db changesetId 1

/-! ## What a step does to the tables -/

section Moves

variable {db after : ConfigDb}

structure RevisionsMove (db after : ConfigDb) : Prop where
  kept : ∀ revision row, db.revisions.get? revision = some row →
    after.revisions.get? revision = some row
  drawn : after.head ≤ after.revisionSeq
  /-- Either nothing is new, or the new head is, and a plan is for it. -/
  origin : (after.head = db.head ∧ ∀ revision row, after.revisions.get? revision = some row →
      db.revisions.get? revision = some row) ∨
    ∃ row, after.revisions = db.revisions.set after.head row ∧ db.head < after.head ∧
      (∀ parent ∈ row.parent, Known db parent) ∧ (∀ source ∈ row.rollbackOf, Known db source) ∧
      (∃ planId plan, after.plans.get? planId = some plan ∧
        plan.targetRevision = some after.head) ∧
      (db.head = 1 → ∃ changesetId, CommittedChangeset after changesetId 1)

structure ChangesetsMove (db after : ConfigDb) : Prop where
  origin : ∀ changesetId row, after.changesets.get? changesetId = some row →
    (∃ old, db.changesets.get? changesetId = some old ∧ old.baseRevision = row.baseRevision ∧
        old.committedRevision = row.committedRevision) ∨
      Known after row.baseRevision ∧ ∀ revision ∈ row.committedRevision, Known after revision
  kept : ∀ changesetId base, CommittedChangeset db changesetId base →
    CommittedChangeset after changesetId base

/-- What a plan is for stays; a plan that was consumed is not taken back. -/
structure SamePlan (old plan : PlanRow) : Prop where
  owner : plan.changesetId = old.changesetId
  base : plan.baseRevision = old.baseRevision
  target : plan.targetRevision = old.targetRevision
  consumed : old.targetRevision.isSome = true → old.state ≠ .planned → old.state ≠ .expired →
    plan.state ≠ .planned ∧ plan.state ≠ .expired

theorem SamePlan.refl (plan : PlanRow) : SamePlan plan plan where
  owner := rfl
  base := rfl
  target := rfl
  consumed _ planned expired := ⟨planned, expired⟩

structure PlansMove (db after : ConfigDb) : Prop where
  origin : ∀ planId plan, after.plans.get? planId = some plan →
    (∃ old, db.plans.get? planId = some old ∧ SamePlan old plan) ∨
      Known after plan.baseRevision ∧ (∀ revision ∈ plan.targetRevision, Known after revision) ∧
        (plan.targetRevision.isSome = true → Consumed after plan)
  kept : ∀ planId plan, db.plans.get? planId = some plan → Consumed db plan →
    ∃ now, after.plans.get? planId = some now ∧ now.targetRevision = plan.targetRevision

structure Moves (db after : ConfigDb) : Prop where
  revisions : RevisionsMove db after
  changesets : ChangesetsMove db after
  plans : PlansMove db after

theorem RevisionsMove.known (moves : RevisionsMove db after) {revision : Nat}
    (known : Known db revision) : Known after revision := by
  obtain ⟨row, found⟩ := Option.isSome_iff_exists.mp known
  exact Option.isSome_iff_exists.mpr ⟨row, moves.kept revision row found⟩

theorem RevisionsMove.cases (moves : RevisionsMove db after) {revision : Nat} {row : RevisionRow}
    (found : after.revisions.get? revision = some row) :
    db.revisions.get? revision = some row ∨ revision = after.head ∧ db.head < revision ∧
      (∀ parent ∈ row.parent, Known db parent) ∧ (∀ source ∈ row.rollbackOf, Known db source) ∧
      ∃ planId plan, after.plans.get? planId = some plan ∧
        plan.targetRevision = some revision := by
  rcases moves.origin with ⟨_, old⟩ | ⟨new, same, above, parents, sources, target, _⟩
  · exact .inl (old revision row found)
  · rw [same, OrderedMap.get?_set] at found
    split at found
    · rename_i here
      cases found
      subst here
      exact .inr ⟨rfl, above, parents, sources, target⟩
    · exact .inl found

theorem Anchored.moves (anchored : Anchored db) (moves : Moves db after) : Anchored after where
  positive := by
    intro revision known
    obtain ⟨row, found⟩ := Option.isSome_iff_exists.mp known
    rcases moves.revisions.cases found with old | ⟨_, above, _⟩
    · exact anchored.positive revision (Option.isSome_iff_exists.mpr ⟨row, old⟩)
    · have first := anchored.positive db.head anchored.head
      omega
  newest := by
    intro revision known
    obtain ⟨row, found⟩ := Option.isSome_iff_exists.mp known
    rcases moves.revisions.cases found with old | ⟨rfl, _⟩
    · have below := anchored.newest revision (Option.isSome_iff_exists.mpr ⟨row, old⟩)
      rcases moves.revisions.origin with ⟨same, _⟩ | ⟨_, _, above, _⟩ <;> omega
    · exact Nat.le_refl _
  head := by
    rcases moves.revisions.origin with ⟨same, _⟩ | ⟨row, same, _⟩
    · rw [same]
      exact moves.revisions.known anchored.head
    · unfold Known
      rw [same]
      simp
  drawn := moves.revisions.drawn
  parents := by
    intro revision row found parent named
    rcases moves.revisions.cases found with old | ⟨_, _, parents, _⟩
    · exact moves.revisions.known (anchored.parents revision row old parent named)
    · exact moves.revisions.known (parents parent named)
  sources := by
    intro revision row found source named
    rcases moves.revisions.cases found with old | ⟨_, _, _, sources, _⟩
    · exact moves.revisions.known (anchored.sources revision row old source named)
    · exact moves.revisions.known (sources source named)
  bases := by
    intro changesetId row found
    rcases moves.changesets.origin changesetId row found with ⟨old, stored, base, _⟩ | ⟨known, _⟩
    · exact base ▸ moves.revisions.known (anchored.bases changesetId old stored)
    · exact known
  committed := by
    intro changesetId row found revision named
    rcases moves.changesets.origin changesetId row found with
      ⟨old, stored, _, same⟩ | ⟨_, known⟩
    · exact moves.revisions.known (anchored.committed changesetId old stored revision (same ▸ named))
    · exact known revision named
  planBases := by
    intro planId plan found
    rcases moves.plans.origin planId plan found with ⟨old, stored, same⟩ | ⟨known, _⟩
    · exact same.base ▸ moves.revisions.known (anchored.planBases planId old stored)
    · exact known
  targets := by
    intro planId plan found revision named
    rcases moves.plans.origin planId plan found with ⟨old, stored, same⟩ | ⟨_, known, _⟩
    · exact moves.revisions.known
        (anchored.targets planId old stored revision (same.target ▸ named))
    · exact known revision named
  consumed := by
    intro planId plan found target
    rcases moves.plans.origin planId plan found with ⟨old, stored, same⟩ | ⟨_, _, consumed⟩
    · rw [same.target] at target
      have before := anchored.consumed planId old stored target
      obtain ⟨planned, expired⟩ := same.consumed target before.planned before.expired
      refine ⟨planned, expired, fun changesetId owner => ?_⟩
      obtain ⟨base, committed⟩ := before.owner changesetId (same.owner ▸ owner)
      exact ⟨base, moves.changesets.kept changesetId base committed⟩
    · exact consumed target
  reserved := by
    intro revision known other
    obtain ⟨row, found⟩ := Option.isSome_iff_exists.mp known
    rcases moves.revisions.cases found with old | ⟨_, _, _, _, target⟩
    · obtain ⟨planId, plan, stored, target⟩ :=
        anchored.reserved revision (Option.isSome_iff_exists.mpr ⟨row, old⟩) other
      have consumed := anchored.consumed planId plan stored (by rw [target]; rfl)
      obtain ⟨now, there, same⟩ := moves.plans.kept planId plan stored consumed
      exact ⟨planId, now, there, same.trans target⟩
    · exact target
  root := by
    have still : (∃ changesetId, CommittedChangeset db changesetId 1) →
        ∃ changesetId, CommittedChangeset after changesetId 1 :=
      Exists.imp fun changesetId committed => moves.changesets.kept changesetId 1 committed
    rcases moves.revisions.origin with ⟨same, _⟩ | ⟨_, _, _, _, _, _, root⟩
    · rw [same]
      exact anchored.root.imp id still
    · rcases anchored.root with first | later
      · exact .inr (root first)
      · exact .inr (still later)

end Moves

/-! ## Steps of the store -/

section Store

variable {ctx : StoreContext} {db after : ConfigDb}

theorem revisionsMove_of_same (anchored : Anchored db) (revisions : after.revisions = db.revisions)
    (head : after.head = db.head) (drawn : db.revisionSeq ≤ after.revisionSeq) :
    RevisionsMove db after where
  kept revision row found := by rw [revisions]; exact found
  drawn := by
    have := anchored.drawn
    omega
  origin := .inl ⟨head, fun revision row found => by rwa [revisions] at found⟩

theorem changesetsMove_of_same (changesets : after.changesets = db.changesets) :
    ChangesetsMove db after where
  origin changesetId row found := .inl ⟨row, by rwa [changesets] at found, rfl, rfl⟩
  kept changesetId base committed := by
    unfold CommittedChangeset
    rw [changesets]
    exact committed

variable {changesetId : String}

theorem changesetsMove_of_set {old row : ChangesetRow}
    (stored : db.changesets.get? changesetId = some old)
    (changesets : after.changesets = db.changesets.set changesetId row)
    (base : row.baseRevision = old.baseRevision)
    (committed : row.committedRevision = old.committedRevision)
    (standing : old.state ≠ .committed) : ChangesetsMove db after where
  origin other new found := by
    rw [changesets, OrderedMap.get?_set] at found
    split at found
    · rename_i same
      subst same
      cases found
      exact .inl ⟨old, stored, base.symm, committed.symm⟩
    · exact .inl ⟨new, found, rfl, rfl⟩
  kept other base' := by
    rintro ⟨found, there, state, same⟩
    refine ⟨found, ?_, state, same⟩
    rw [changesets, OrderedMap.get?_set]
    split
    · rename_i eq
      subst eq
      cases stored.symm.trans there
      exact (standing state).elim
    · exact there

theorem plansMove_of_same (plans : after.plans = db.plans) : PlansMove db after where
  origin planId plan found := .inl ⟨plan, by rwa [plans] at found, .refl plan⟩
  kept planId plan found _ := ⟨plan, by rwa [plans], rfl⟩

theorem plansMove_of_expire
    (plans : after.plans = expireAll changesetId db.plans) : PlansMove db after where
  origin planId plan found := by
    rw [plans, get?_expireAll] at found
    obtain ⟨old, stored, rfl⟩ := Option.map_eq_some_iff.mp found
    refine .inl ⟨old, stored, ?_⟩
    split
    · rename_i planned
      obtain ⟨_, state⟩ := Bool.and_eq_true_iff.mp planned
      exact
        { owner := rfl
          base := rfl
          target := rfl
          consumed := fun _ consumed _ => (consumed (of_decide_eq_true state)).elim }
    · exact .refl old
  kept planId plan found consumed := by
    refine ⟨plan, ?_, rfl⟩
    rw [plans, get?_expireAll, found]
    simp [PlanRow.plannedOf, consumed.planned]

variable {planId : String}

theorem plansMove_of_set {row : PlanRow}
    (plans : after.plans = db.plans.set planId row)
    (unused : ∀ old, db.plans.get? planId = some old → old.state = .planned)
    (base : Known after row.baseRevision)
    (target : ∀ revision ∈ row.targetRevision, Known after revision)
    (consumed : row.targetRevision.isSome = true → Consumed after row) : PlansMove db after where
  origin other plan found := by
    rw [plans, OrderedMap.get?_set] at found
    split at found
    · cases found
      exact .inr ⟨base, target, consumed⟩
    · exact .inl ⟨plan, found, .refl plan⟩
  kept other plan found used := by
    refine ⟨plan, ?_, rfl⟩
    rw [plans, OrderedMap.get?_set]
    split
    · rename_i same
      subst same
      exact (used.planned (unused plan found)).elim
    · exact found

variable {plan : PlanRow}

theorem revisionsMove_of_advance (anchored : Anchored db) {row : RevisionRow}
    (head : after.head = db.revisionSeq + 1)
    (drawn : after.revisionSeq = db.revisionSeq + 1)
    (revisions : after.revisions = db.revisions.set (db.revisionSeq + 1) row)
    (unwritten : db.revisions.get? (db.revisionSeq + 1) = none)
    (parent : row.parent = some db.head) (sources : ∀ source ∈ row.rollbackOf, Known db source)
    (planned : after.plans.get? planId = some plan)
    (target : plan.targetRevision = some (db.revisionSeq + 1))
    (root : db.head = 1 → ∃ changesetId, CommittedChangeset after changesetId 1) :
    RevisionsMove db after where
  kept revision old found := by
    rw [revisions, OrderedMap.get?_set]
    split
    · rename_i same
      rw [same, found] at unwritten
      cases unwritten
    · exact found
  drawn := by rw [head, drawn]
  origin := by
    refine .inr ⟨row, by rw [head, revisions], ?_, ?_, sources, ⟨planId, plan, planned, ?_⟩, root⟩
    · have := anchored.drawn
      omega
    · intro named given
      cases parent.symm.trans given
      exact anchored.head
    · rw [head, target]

theorem consumed_of_ownerless (ownerless : plan.changesetId = none)
    (state : plan.state = .committed) : Consumed after plan where
  planned := by rw [state]; simp
  expired := by rw [state]; simp
  owner changesetId owner := by rw [ownerless] at owner; cases owner

theorem moves_of_commit (anchored : Anchored db) {changeset : ChangesetRow} {model : Model}
    (found : db.plans.get? planId = some plan) (owner : plan.changesetId = some changesetId)
    (unused : plan.state = .planned)
    (stored : db.changesets.get? changesetId = some changeset)
    (unwritten : db.revisions.get? (db.revisionSeq + 1) = none)
    (head : after.head = db.revisionSeq + 1) (drawn : after.revisionSeq = db.revisionSeq + 1)
    (revisions : after.revisions = db.revisions.set (db.revisionSeq + 1)
      { parent := some db.head, model := model })
    (changesets : after.changesets = db.changesets.set changesetId
      { changeset with
        state := .committed
        committedRevision := some (db.revisionSeq + 1) })
    (plans : after.plans = db.plans.set planId
      { plan with
        state := .committed
        targetRevision := some (db.revisionSeq + 1)
        activationEpoch := some (db.epochSeq + 1) }) : Moves db after := by
  have here : CommittedChangeset after changesetId changeset.baseRevision := by
    unfold CommittedChangeset
    rw [changesets, OrderedMap.get?_set_same]
    exact ⟨_, rfl, rfl, rfl⟩
  have advance := revisionsMove_of_advance anchored head drawn revisions unwritten rfl
    (fun source none => by cases none) (by rw [plans]; exact OrderedMap.get?_set_same _ _ _) rfl
    fun first => by
      have base := anchored.bases changesetId changeset stored
      have positive := anchored.positive changeset.baseRevision base
      have newest := anchored.newest changeset.baseRevision base
      exact ⟨changesetId, (show changeset.baseRevision = 1 by omega) ▸ here⟩
  have drawnKnown : Known after (db.revisionSeq + 1) := by
    unfold Known
    rw [revisions]
    simp
  refine ⟨advance, ⟨fun other row there => ?_, ?_⟩,
    plansMove_of_set plans (fun old there => ?_) ?_ (fun revision given => ?_) fun _ => ?_⟩
  · rw [changesets, OrderedMap.get?_set] at there
    split at there
    · cases there
      refine .inr ⟨advance.known (anchored.bases changesetId changeset stored), ?_⟩
      intro revision given
      exact Option.some.inj given ▸ drawnKnown
    · exact .inl ⟨row, there, rfl, rfl⟩
  · rintro other base ⟨row, there, state, same⟩
    by_cases eq : changesetId = other
    · subst eq
      cases stored.symm.trans there
      exact same ▸ here
    · exact ⟨row, by rw [changesets, OrderedMap.get?_set_other _ _ eq, there], state, same⟩
  · cases found.symm.trans there
    exact unused
  · exact advance.known (anchored.planBases planId plan found)
  · exact Option.some.inj given ▸ drawnKnown
  · refine ⟨by simp, by simp, fun id named => ?_⟩
    cases owner.symm.trans named
    exact ⟨changeset.baseRevision, here⟩

theorem moves_of_rollback (anchored : Anchored db) {revision : Nat}
    {source : RevisionRow} {restored : Model}
    (found : db.revisions.get? revision = some source) (past : revision < db.head)
    (unwritten : db.revisions.get? (db.revisionSeq + 1) = none)
    (unplanned : db.plans.get? planId = none)
    (head : after.head = db.revisionSeq + 1) (drawn : after.revisionSeq = db.revisionSeq + 1)
    (revisions : after.revisions = db.revisions.set (db.revisionSeq + 1)
      { parent := some db.head, rollbackOf := some revision, model := restored })
    (changesets : after.changesets = db.changesets)
    (plans : after.plans = db.plans.set planId plan) (ownerless : plan.changesetId = none)
    (state : plan.state = .committed) (base : plan.baseRevision = db.head)
    (target : plan.targetRevision = some (db.revisionSeq + 1)) : Moves db after := by
  have known : Known db revision := Option.isSome_iff_exists.mpr ⟨source, found⟩
  have advance := revisionsMove_of_advance anchored head drawn revisions unwritten rfl
    (fun named given => Option.some.inj given ▸ known)
    (by rw [plans]; exact OrderedMap.get?_set_same _ _ _) target fun first => by
      have positive := anchored.positive revision known
      omega
  refine ⟨advance, changesetsMove_of_same changesets,
    plansMove_of_set plans (fun old there => ?_) (base ▸ advance.known anchored.head)
      (fun named given => ?_) fun _ => consumed_of_ownerless ownerless state⟩
  · rw [unplanned] at there
    cases there
  · cases target.symm.trans given
    unfold Known
    rw [revisions]
    simp

theorem moves_of_change {action : StoreAction} (anchored : Anchored db)
    (change : Change ctx db action after) : Moves db after := by
  have same {db after : ConfigDb} := @revisionsMove_of_same db after
  cases change with
  | @created changesetId baseRevision known fresh =>
      refine ⟨same anchored rfl rfl (Nat.le_refl _), ?_, plansMove_of_same rfl⟩
      constructor
      · intro other row found
        simp only [OrderedMap.get?_set] at found
        split at found
        · cases found
          exact .inr ⟨known, fun _ none => by cases none⟩
        · exact .inl ⟨row, found, rfl, rfl⟩
      · rintro other base ⟨row, found, state, same⟩
        refine ⟨row, ?_, state, same⟩
        simp only [OrderedMap.get?_set]
        split
        · rename_i eq
          rw [eq, found] at fresh
          cases fresh
        · exact found
  | patched stored opened =>
      exact ⟨same anchored rfl rfl (Nat.le_refl _),
        changesetsMove_of_set stored rfl rfl rfl (by simp [opened]), plansMove_of_same rfl⟩
  | reopened stored closed =>
      exact ⟨same anchored rfl rfl (Nat.le_refl _),
        changesetsMove_of_set stored rfl rfl rfl (by simp [closed]), plansMove_of_expire rfl⟩
  | discarded stored live =>
      refine ⟨same anchored rfl rfl (Nat.le_refl _),
        changesetsMove_of_set stored rfl rfl rfl ?_, plansMove_of_expire rfl⟩
      intro committed
      rw [committed] at live
      cases live
  | committed found owner unused fresh current stored tried unwritten =>
      exact moves_of_commit anchored found owner unused stored unwritten rfl rfl rfl rfl rfl
  | rolledBack found past decoded tried unwritten unplanned =>
      exact moves_of_rollback anchored found past unwritten unplanned rfl rfl rfl rfl rfl rfl rfl rfl rfl
  | @replanned planId now source model found decoded unplanned =>
      refine ⟨same anchored rfl rfl (Nat.le_refl _), changesetsMove_of_same rfl,
        plansMove_of_set rfl (fun old stored => ?_) anchored.head (fun revision given => ?_)
          fun _ => consumed_of_ownerless rfl rfl⟩
      · rw [unplanned] at stored
        cases stored
      · cases given
        exact anchored.head

theorem moves_of_effect {s next : StoreSystem} {action : StoreAction} (anchored : Anchored s.db)
    (readings : ∀ call reading, s.planning.get? call = some reading →
      Known s.db reading.baseRevision)
    (effect : Effect ctx s action next) :
    Moves s.db next.db ∧ ∀ call reading, next.planning.get? call = some reading →
      Known next.db reading.baseRevision := by
  have drew {revisionSeq epochSeq : Nat} (later : s.db.revisionSeq ≤ revisionSeq) :
      Moves s.db (s.db.drawn revisionSeq epochSeq) :=
    ⟨revisionsMove_of_same anchored rfl rfl later, changesetsMove_of_same rfl,
      plansMove_of_same rfl⟩
  have same : Moves s.db s.db :=
    ⟨revisionsMove_of_same anchored rfl rfl (Nat.le_refl _), changesetsMove_of_same rfl,
      plansMove_of_same rfl⟩
  have erased {call other : Nat} {reading : PlanCall}
      (calling : (s.planning.erase call).get? other = some reading) :
      Known s.db reading.baseRevision := by
    rw [OrderedMap.get?_erase] at calling
    split at calling
    · cases calling
    · exact readings other reading calling
  cases effect with
  | drew revisions epochs => exact ⟨drew revisions, readings⟩
  | changed change =>
      have moves := moves_of_change anchored change
      exact ⟨moves, fun call reading calling =>
        moves.revisions.known (readings call reading calling)⟩
  | begun stored =>
      refine ⟨same, fun other reading calling => ?_⟩
      simp only [OrderedMap.get?_set] at calling
      split at calling
      · cases calling
        exact anchored.bases _ _ stored
      · exact readings other reading calling
  | tried known outcome =>
      refine ⟨same, fun other reading calling => ?_⟩
      simp only [OrderedMap.get?_set] at calling
      split at calling
      · cases calling
        have kept := readings _ _ known
        exact kept
      · exact readings other reading calling
  | dropped revisions epochs => exact ⟨drew revisions, fun _ _ calling => erased calling⟩
  | @sealedPlan call now planId reading model changeset calling dried stored unplanned =>
      refine ⟨⟨revisionsMove_of_same anchored rfl rfl (Nat.le_refl _), ?_,
        plansMove_of_set rfl (fun old there => ?_) (readings call reading calling)
          (fun revision given => by cases given) fun none => by cases none⟩,
        fun _ _ calling => erased calling⟩
      · cases live : changeset.state.live with
        | true =>
            refine @changesetsMove_of_set _ _ _ _ { changeset with state := .sealed } stored
              rfl rfl rfl fun committed => ?_
            rw [committed] at live
            cases live
        | false => exact changesetsMove_of_same rfl
      · rw [unplanned] at there
        cases there

end Store

/-! ## What a sweep finds -/

namespace HistoryWorld

def beforeRevisions : SweepStage → Bool
  | .plans => true
  | .changesets => true
  | .operations => true
  | .selecting => true
  | _ => false

structure Retained (world : HistoryWorld) : Prop where
  anchored : Anchored world.db
  readings : ∀ call reading, world.store.planning.get? call = some reading →
    Known world.db reading.baseRevision
  operations : ∀ operationId operation, world.operations.get? operationId = some operation →
    ∃ plan, world.db.plans.get? operation.planId = some plan ∧
      plan.targetRevision = some operation.revision
  sweeps : ∀ call sweep, world.sweeps call = some sweep → beforeRevisions sweep.stage = true

section Sweeps

variable {world after : HistoryWorld}

theorem Retained.held (retained : world.Retained) {revision : Nat}
    (known : Known world.db revision) : world.unheld revision = false := by
  refine Bool.eq_false_iff.mpr fun unheld => ?_
  simp only [HistoryWorld.unheld, Bool.and_eq_true, decide_eq_true_eq, List.all_eq_true]
    at unheld
  obtain ⟨⟨⟨notHead, noPlan⟩, _⟩, noChangeset⟩ := unheld
  by_cases first : revision = 1
  · subst first
    rcases retained.anchored.root with head | ⟨changesetId, row, found, _, base⟩
    · exact notHead head.symm
    · exact (noChangeset row (OrderedMap.mem_values_iff.mpr ⟨changesetId, found⟩)).1 base
  · obtain ⟨planId, plan, found, target⟩ := retained.anchored.reserved revision known first
    exact noPlan plan (OrderedMap.mem_values_iff.mpr ⟨planId, found⟩) target

theorem Retained.selects_nothing (retained : world.Retained) (days limit : Nat) :
    world.selectRevisions days limit = [] := by
  have none : (world.db.revisions.keys.filter fun revision =>
      world.aged days (world.created.revisions revision) && world.unheld revision) = [] := by
    refine List.filter_eq_nil_iff.mpr fun revision member => ?_
    obtain ⟨row, found⟩ := OrderedMap.mem_keys_iff.mp member
    simp [retained.held (Option.isSome_iff_exists.mpr ⟨row, found⟩)]
  unfold selectRevisions
  rw [none]
  simp

theorem Retained.consumed (retained : world.Retained) {operationId : String}
    {operation : OperationRecord} (found : world.operations.get? operationId = some operation) :
    ∃ plan, world.db.plans.get? operation.planId = some plan ∧ Consumed world.db plan := by
  obtain ⟨plan, stored, target⟩ := retained.operations operationId operation found
  exact ⟨plan, stored, retained.anchored.consumed operation.planId plan stored (by rw [target]; rfl)⟩

theorem mem_chosen {α : Type} {table : OrderedMap String α} {wanted : String × α → Bool}
    {key : String} {row : α} (member : key ∈ (table.entries.filter wanted).map Prod.fst)
    (found : table.get? key = some row) : wanted (key, row) = true := by
  obtain ⟨⟨same, other⟩, chosen, rfl⟩ := List.mem_map.mp member
  obtain ⟨there, wants⟩ := List.mem_filter.mp chosen
  cases (OrderedMap.mem_entries_iff.mp there).symm.trans found
  exact wants

/-- No operation stands in the way of the deletion of plans that were not consumed. -/
theorem Retained.removes (retained : world.Retained) {doomed : String → PlanRow → Bool}
    (unused : ∀ planId plan, world.db.plans.get? planId = some plan → doomed planId plan = true →
      ¬ Consumed world.db plan) :
    ∃ gone : String → Bool,
      world.removePlans doomed =
        some (world.withDb (world.db.withPlans (world.db.plans.without gone))) ∧
      ∀ planId plan, world.db.plans.get? planId = some plan → Consumed world.db plan →
        gone planId = false := by
  have spared : ∀ planId plan, world.db.plans.get? planId = some plan →
      Consumed world.db plan → planId ∉
        (world.db.plans.entries.filter fun entry => doomed entry.1 entry.2).map Prod.fst := by
    intro planId plan found consumed gone
    exact unused planId plan found (mem_chosen gone found) consumed
  refine ⟨_, if_neg fun refused => ?_, fun planId plan found consumed =>
    decide_eq_false (spared planId plan found consumed)⟩
  obtain ⟨operation, member, gone⟩ := List.any_eq_true.mp refused
  obtain ⟨operationId, found⟩ := OrderedMap.mem_values_iff.mp member
  obtain ⟨plan, stored, consumed⟩ := retained.consumed found
  exact spared _ plan stored consumed (of_decide_eq_true gone)

theorem plansMove_of_without {db after : ConfigDb} {gone : String → Bool}
    (plans : after.plans = db.plans.without gone)
    (spared : ∀ planId plan, db.plans.get? planId = some plan → Consumed db plan →
      gone planId = false) : PlansMove db after where
  origin planId plan found := by
    rw [plans, OrderedMap.get?_without] at found
    split at found
    · cases found
    · exact .inl ⟨plan, found, .refl plan⟩
  kept planId plan found consumed := by
    refine ⟨plan, ?_, rfl⟩
    rw [plans, OrderedMap.get?_without, spared planId plan found consumed]
    exact found

theorem changesetsMove_of_without {db after : ConfigDb} {gone : String → Bool}
    (changesets : after.changesets = db.changesets.without gone)
    (spared : ∀ changesetId row, db.changesets.get? changesetId = some row →
      row.state = .committed → gone changesetId = false) : ChangesetsMove db after where
  origin changesetId row found := by
    rw [changesets, OrderedMap.get?_without] at found
    split at found
    · cases found
    · exact .inl ⟨row, found, rfl, rfl⟩
  kept changesetId base := by
    rintro ⟨row, found, state, same⟩
    refine ⟨row, ?_, state, same⟩
    rw [changesets, OrderedMap.get?_without, spared changesetId row found state]
    exact found

theorem Retained.carried (retained : world.Retained) (moves : Moves world.db after.db)
    (readings : ∀ call reading, after.store.planning.get? call = some reading →
      Known after.db reading.baseRevision)
    (operations : ∀ operationId operation, after.operations.get? operationId = some operation →
      ∃ plan, world.db.plans.get? operation.planId = some plan ∧
        plan.targetRevision = some operation.revision)
    (sweeps : ∀ call sweep, after.sweeps call = some sweep →
      beforeRevisions sweep.stage = true) : after.Retained where
  anchored := retained.anchored.moves moves
  readings := readings
  operations := by
    intro operationId operation found
    obtain ⟨plan, stored, target⟩ := operations operationId operation found
    have consumed := retained.anchored.consumed operation.planId plan stored (by rw [target]; rfl)
    obtain ⟨now, there, same⟩ := moves.plans.kept operation.planId plan stored consumed
    exact ⟨now, there, same.trans target⟩
  sweeps := sweeps

theorem Retained.same (retained : world.Retained) : Moves world.db world.db :=
  ⟨revisionsMove_of_same retained.anchored rfl rfl (Nat.le_refl _), changesetsMove_of_same rfl,
    plansMove_of_same rfl⟩

structure Swept (world after : HistoryWorld) : Prop where
  retained : after.Retained
  revisions : after.db.revisions = world.db.revisions
  head : after.db.head = world.db.head

theorem Retained.deletes (retained : world.Retained) (revisions : after.db.revisions = world.db.revisions)
    (head : after.db.head = world.db.head) (drawn : after.db.revisionSeq = world.db.revisionSeq)
    (changesets : ChangesetsMove world.db after.db) (plans : PlansMove world.db after.db)
    (planning : after.store.planning = world.store.planning)
    (operations : ∀ operationId operation, after.operations.get? operationId = some operation →
      world.operations.get? operationId = some operation)
    (sweeps : after.sweeps = world.sweeps) : world.Swept after := by
  have moves : Moves world.db after.db :=
    ⟨revisionsMove_of_same retained.anchored revisions head (Nat.le_of_eq drawn.symm), changesets,
      plans⟩
  refine ⟨retained.carried moves (fun call reading calling => ?_)
    (fun operationId operation found => ?_) (fun call sweep found => ?_), revisions, head⟩
  · exact moves.revisions.known (retained.readings call reading (planning ▸ calling))
  · exact retained.operations operationId operation (operations operationId operation found)
  · exact retained.sweeps call sweep (sweeps ▸ found)

theorem Retained.onward (retained : world.Retained) (call : Nat) {next : Option SweepCall}
    (stage : ∀ sweep ∈ next, beforeRevisions sweep.stage = true) :
    (world.onward call next).Retained where
  anchored := retained.anchored
  readings := retained.readings
  operations := retained.operations
  sweeps := by
    intro other sweep found
    change Function.update world.sweeps call next other = some sweep at found
    by_cases same : other = call
    · subst same
      rw [Function.update_self] at found
      exact stage sweep found
    · rw [Function.update_of_ne same] at found
      exact retained.sweeps other sweep found

theorem Retained.statement (retained : world.Retained) {call : Nat} {fault : Fault}
    {effect : Option HistoryWorld} {next : Option SweepCall}
    (effects : ∀ after, effect = some after → world.Swept after)
    (stage : ∀ sweep ∈ next, beforeRevisions sweep.stage = true) :
    world.Swept (world.statement call fault effect next) := by
  unfold HistoryWorld.statement
  split
  · obtain ⟨reached, revisions, head⟩ := effects _ rfl
    exact ⟨reached.onward call stage, revisions, head⟩
  · obtain ⟨reached, revisions, head⟩ := effects _ rfl
    exact ⟨reached.onward call (fun _ none => by cases none), revisions, head⟩
  · exact ⟨retained.onward call (fun _ none => by cases none), rfl, rfl⟩

theorem unconsumed_not {plan : PlanRow} (unused : unconsumed plan = true) :
    ¬ Consumed world.db plan := by
  intro consumed
  rcases Bool.or_eq_true_iff.mp unused with planned | expired
  · exact consumed.planned (of_decide_eq_true planned)
  · exact consumed.expired (of_decide_eq_true expired)

theorem mem_of_mem_oldest {κ : Type} {limit : Nat} {time : κ → Nat} {keys : List κ} {key : κ}
    (member : key ∈ oldest limit time keys) : key ∈ keys :=
  (List.mem_insertionSort _).mp (List.mem_of_mem_take member)

theorem Retained.deletesPlans (retained : world.Retained) (days limit : Nat) :
    ∃ after, world.deletePlans days limit = some after ∧ world.Swept after := by
  unfold deletePlans
  dsimp only
  generalize selected : oldest limit world.created.plans _ = chosen
  have unused : ∀ planId plan, world.db.plans.get? planId = some plan →
      decide (planId ∈ chosen) = true → ¬ Consumed world.db plan := by
    intro planId plan found member
    have wanted := of_decide_eq_true member
    rw [← selected] at wanted
    have both := mem_chosen (mem_of_mem_oldest wanted) found
    exact unconsumed_not (Bool.and_eq_true_iff.mp both).1
  obtain ⟨gone, removed, spared⟩ := retained.removes unused
  rw [removed]
  exact ⟨_, rfl, retained.deletes rfl rfl rfl (changesetsMove_of_same rfl)
    (plansMove_of_without rfl spared) rfl (fun _ _ found => found) rfl⟩

theorem Retained.deletesChangesets (retained : world.Retained) (days limit : Nat) :
    ∃ after, world.deleteChangesets days limit = some after ∧ world.Swept after := by
  unfold deleteChangesets
  dsimp only
  generalize selected : oldest limit world.created.changesets _ = chosen
  have discarded : ∀ changesetId row, world.db.changesets.get? changesetId = some row →
      changesetId ∈ chosen → row.state = .discarded := by
    intro changesetId row found member
    rw [← selected] at member
    have wanted := mem_chosen (mem_of_mem_oldest member) found
    exact of_decide_eq_true (Bool.and_eq_true_iff.mp wanted).1
  obtain ⟨gone, removed, spared⟩ := retained.removes fun planId plan found
      (doomed : (plan.changesetId.any fun changesetId => decide (changesetId ∈ chosen)) = true)
      consumed => by
    obtain ⟨changesetId, owner, member⟩ := (Option.any_eq_true _ _).mp doomed
    obtain ⟨base, row, stored, state, _⟩ := consumed.owner changesetId owner
    rw [discarded changesetId row stored (of_decide_eq_true member)] at state
    cases state
  rw [removed]
  refine ⟨_, rfl, retained.deletes rfl rfl rfl
    (@changesetsMove_of_without world.db _ (fun changesetId => decide (changesetId ∈ chosen)) rfl
      fun changesetId row found state => ?_)
    (plansMove_of_without rfl spared) rfl (fun _ _ found => found) rfl⟩
  refine decide_eq_false fun member => ?_
  rw [discarded changesetId row found member] at state
  cases state

theorem Retained.deletesOperations (retained : world.Retained) (days limit : Nat) :
    world.Swept (world.deleteOperations days limit) := by
  refine retained.deletes rfl rfl rfl (changesetsMove_of_same rfl) (plansMove_of_same rfl) rfl
    (fun operationId operation found => ?_) rfl
  simp only [deleteOperations, OrderedMap.get?_without] at found
  split at found
  · cases found
  · exact found

theorem Retained.goes (retained : world.Retained) {call : Nat} (fault : Fault) {sweep : SweepCall}
    (calling : world.sweeps call = some sweep) : world.Swept (world.goSweep call fault sweep) := by
  have stage := retained.sweeps call sweep calling
  have onto (stage : SweepStage) (early : beforeRevisions stage = true) :
      ∀ next ∈ some { sweep with stage := stage }, beforeRevisions next.stage = true := by
    intro next same
    cases same
    exact early
  have skips {next : Option SweepCall}
      (stage : ∀ sweep ∈ next, beforeRevisions sweep.stage = true) :
      world.Swept (world.onward call next) :=
    ⟨retained.onward call stage, rfl, rfl⟩
  unfold HistoryWorld.goSweep
  cases reached : sweep.stage with
  | plans =>
      dsimp only
      cases setting : sweep.setting.planDays with
      | none => exact skips (onto .changesets rfl)
      | some days =>
          obtain ⟨after, deleted, swept⟩ := retained.deletesPlans days sweep.setting.maxPerSweep
          refine retained.statement (fun other same => ?_) (onto .changesets rfl)
          cases deleted.symm.trans same
          exact swept
  | changesets =>
      dsimp only
      cases setting : sweep.setting.changesetDays with
      | none => exact skips (onto .operations rfl)
      | some days =>
          obtain ⟨after, deleted, swept⟩ :=
            retained.deletesChangesets days sweep.setting.maxPerSweep
          refine retained.statement (fun other same => ?_) (onto .operations rfl)
          cases deleted.symm.trans same
          exact swept
  | operations =>
      dsimp only
      cases setting : sweep.setting.operationDays with
      | none => exact skips (onto .selecting rfl)
      | some days =>
          refine retained.statement (fun other same => ?_) (onto .selecting rfl)
          cases same
          exact retained.deletesOperations days sweep.setting.maxPerSweep
  | selecting =>
      dsimp only
      cases setting : sweep.setting.revisionDays with
      | none => exact skips fun _ none => by cases none
      | some days =>
          dsimp only
          rw [retained.selects_nothing]
          refine retained.statement (fun other same => ?_) fun _ none => by cases none
          cases same
          exact ⟨retained, rfl, rfl⟩
  | measuring rows | holding oldest | clearing doomed | deleting doomed =>
      rw [reached] at stage; cases stage

end Sweeps

/-! ## Steps and runs -/

/-- Every reference is to a revision, or a plan, that there is. -/
structure Closed (world : HistoryWorld) : Prop where
  head : Known world.db world.db.head
  parents : ∀ revision row, world.db.revisions.get? revision = some row →
    ∀ parent ∈ row.parent, Known world.db parent
  sources : ∀ revision row, world.db.revisions.get? revision = some row →
    ∀ source ∈ row.rollbackOf, Known world.db source
  bases : ∀ changesetId row, world.db.changesets.get? changesetId = some row →
    Known world.db row.baseRevision
  committed : ∀ changesetId row, world.db.changesets.get? changesetId = some row →
    ∀ revision ∈ row.committedRevision, Known world.db revision
  planBases : ∀ planId plan, world.db.plans.get? planId = some plan →
    Known world.db plan.baseRevision
  targets : ∀ planId plan, world.db.plans.get? planId = some plan →
    ∀ revision ∈ plan.targetRevision, Known world.db revision
  operations : ∀ operationId operation, world.operations.get? operationId = some operation →
    Known world.db operation.revision ∧ (world.db.plans.get? operation.planId).isSome = true

/-- The setting allows to remove a revision: it and all older ones are old, nothing
refers to them, and none of them is what a later revision is a rollback to. -/
def Removable (world : HistoryWorld) (days revision : Nat) : Prop :=
  Known world.db revision ∧
    (∀ older ≤ revision, Known world.db older →
      world.aged days (world.created.revisions older) = true ∧ world.unheld older = true) ∧
    ∀ later row, world.db.revisions.get? later = some row → revision < later →
      ∀ source ∈ row.rollbackOf, revision < source

/-- All references are closed, no setting allows to remove a revision that is there,
and no foreign key makes a sweep fail. -/
structure WellKept (world : HistoryWorld) : Prop where
  closed : world.Closed
  complete : ∀ days revision, ¬ world.Removable days revision
  unrefused : ∀ days limit, (world.deletePlans days limit).isSome = true ∧
    (world.deleteChangesets days limit).isSome = true

/-- What is left of the revisions is the newest of them, with the head. -/
structure KeepsSuffix (before after : HistoryWorld) : Prop where
  suffix : ∀ revision, Known before.db revision → Known after.db revision ∨
    ∀ kept, Known after.db kept → revision < kept
  rows : ∀ revision row, before.db.revisions.get? revision = some row →
    Known after.db revision → after.db.revisions.get? revision = some row
  head : Known after.db after.db.head

section Runs

variable {ctx : StoreContext} {world after before : HistoryWorld}

theorem Retained.wellKept (retained : world.Retained) : world.WellKept where
  closed :=
    { head := retained.anchored.head
      parents := retained.anchored.parents
      sources := retained.anchored.sources
      bases := retained.anchored.bases
      committed := retained.anchored.committed
      planBases := retained.anchored.planBases
      targets := retained.anchored.targets
      operations := by
        intro operationId operation found
        obtain ⟨plan, stored, target⟩ := retained.operations operationId operation found
        exact ⟨retained.anchored.targets operation.planId plan stored operation.revision target,
          Option.isSome_iff_exists.mpr ⟨plan, stored⟩⟩ }
  complete := by
    rintro days revision ⟨known, allowed, _⟩
    have unheld := (allowed revision (Nat.le_refl _) known).2
    rw [retained.held known] at unheld
    cases unheld
  unrefused := by
    intro days limit
    obtain ⟨_, plans, _⟩ := retained.deletesPlans days limit
    obtain ⟨_, changesets, _⟩ := retained.deletesChangesets days limit
    exact ⟨Option.isSome_iff_exists.mpr ⟨_, plans⟩, Option.isSome_iff_exists.mpr ⟨_, changesets⟩⟩

theorem samePlan_of_state {plan : PlanRow} {state : PlanState} (planned : state ≠ .planned)
    (expired : state ≠ .expired) : SamePlan plan { plan with state := state } where
  owner := rfl
  base := rfl
  target := rfl
  consumed _ _ _ := ⟨planned, expired⟩

theorem plansMove_of_state {db : ConfigDb} {planId : String} {plan : PlanRow} {state : PlanState}
    (stored : db.plans.get? planId = some plan) (planned : state ≠ .planned)
    (expired : state ≠ .expired) :
    PlansMove db (db.withPlan planId { plan with state := state }) where
  origin other row found := by
    simp only [ConfigDb.withPlan, OrderedMap.get?_set] at found
    split at found
    · rename_i same
      subst same
      cases found
      exact .inl ⟨plan, stored, samePlan_of_state planned expired⟩
    · exact .inl ⟨row, found, .refl row⟩
  kept other row found _ := by
    simp only [ConfigDb.withPlan, OrderedMap.get?_set]
    split
    · rename_i same
      subst same
      cases stored.symm.trans found
      exact ⟨_, rfl, rfl⟩
    · exact ⟨row, found, rfl⟩

/-- A step keeps every revision as it is; a statement of a sweep adds none. -/
structure Keeps (before : HistoryWorld) (action : HistoryAction) (after : HistoryWorld) : Prop where
  rows : ∀ revision row, before.db.revisions.get? revision = some row →
    after.db.revisions.get? revision = some row
  swept : ∀ call fault, action = .goSweep call fault →
    after.db.revisions = before.db.revisions ∧ after.db.head = before.db.head

theorem retained_step {action : HistoryAction} (step : Step ctx world action after)
    (retained : world.Retained) : after.Retained ∧ world.Keeps action after := by
  have moved {action : HistoryAction} (other : ∀ call fault, action ≠ .goSweep call fault)
      (moves : Moves world.db after.db) (kept : after.Retained) :
      after.Retained ∧ world.Keeps action after :=
    ⟨kept, moves.revisions.kept, fun call fault same => (other call fault same).elim⟩
  have marked {planId : String} {plan : PlanRow} (state : PlanState)
      (stored : world.db.plans.get? planId = some plan) (planned : state ≠ .planned)
      (expired : state ≠ .expired) :
      Moves world.db (world.setPlanState planId plan state).db ∧
        (world.setPlanState planId plan state).Retained := by
    have moves : Moves world.db (world.setPlanState planId plan state).db :=
      ⟨revisionsMove_of_same retained.anchored rfl rfl (Nat.le_refl _), changesetsMove_of_same rfl,
        plansMove_of_state stored planned expired⟩
    exact ⟨moves, retained.carried moves (fun call reading calling =>
      moves.revisions.known (retained.readings call reading calling)) retained.operations
        retained.sweeps⟩
  unfold Step at step
  cases action with
  | wait milliseconds =>
      cases step
      exact moved (by simp) retained.same
        ⟨retained.anchored, retained.readings, retained.operations, retained.sweeps⟩
  | store input =>
      obtain ⟨⟨label, next⟩, acted, rfl⟩ := Option.map_eq_some_iff.mp step
      obtain ⟨moves, readings⟩ :=
        moves_of_effect retained.anchored retained.readings (act_effect acted).2
      exact moved (by simp) moves
        (retained.carried moves readings retained.operations retained.sweeps)
  | claim operationId planId =>
      simp only [act, claim] at step
      split at step
      · cases step
      · rename_i revision target
        obtain ⟨plan, stored, targeted⟩ := Option.bind_eq_some_iff.mp target
        split at step
        · cases step
        · split at step
          · cases step
            exact moved (by simp) retained.same retained
          · cases step
            refine moved (by simp) retained.same (retained.carried retained.same retained.readings
              (fun other operation found => ?_) retained.sweeps)
            simp only [OrderedMap.get?_set] at found
            split at found
            · cases found
              exact ⟨plan, stored, targeted⟩
            · exact retained.operations other operation found
  | bound planId =>
      obtain ⟨plan, filtered, rfl⟩ := Option.map_eq_some_iff.mp step
      obtain ⟨stored, _⟩ := Option.filter_eq_some_iff.mp filtered
      obtain ⟨moves, kept⟩ := marked .operationBound stored (by simp) (by simp)
      exact moved (by simp) moves kept
  | record operationId phase =>
      obtain ⟨operation, found, rfl⟩ := Option.map_eq_some_iff.mp step
      refine moved (by simp) retained.same (retained.carried retained.same retained.readings
        (fun other row there => ?_) retained.sweeps)
      simp only [OrderedMap.get?_set] at there
      split at there
      · cases there
        exact retained.operations operationId operation found
      · exact retained.operations other row there
  | applied planId =>
      obtain ⟨plan, filtered, rfl⟩ := Option.map_eq_some_iff.mp step
      obtain ⟨stored, _⟩ := Option.filter_eq_some_iff.mp filtered
      obtain ⟨moves, kept⟩ := marked .applied stored (by simp) (by simp)
      exact moved (by simp) moves kept
  | startSweep call setting =>
      simp only [act] at step
      split at step
      · cases step
        refine moved (by simp) retained.same (retained.onward call fun sweep same => ?_)
        cases same
        rfl
      · cases step
  | goSweep call fault =>
      obtain ⟨sweep, calling, rfl⟩ := Option.map_eq_some_iff.mp step
      obtain ⟨kept, revisions, head⟩ := retained.goes fault calling
      exact ⟨kept, fun revision row found => by rwa [revisions], fun _ _ _ => ⟨revisions, head⟩⟩

theorem initial_revision {revision : Nat} {row : RevisionRow}
    (found : ({} : ConfigDb).revisions.get? revision = some row) :
    revision = 1 ∧ row = { parent := none, model := {} } := by
  rw [OrderedMap.get?_set] at found
  split at found
  · rename_i same
    exact ⟨same.symm, (Option.some.inj found).symm⟩
  · cases found

theorem anchored_initial : Anchored ({} : ConfigDb) := by
  have only {revision : Nat} (known : Known {} revision) : revision = 1 := by
    obtain ⟨row, found⟩ := Option.isSome_iff_exists.mp known
    exact (initial_revision found).1
  exact
    { positive := fun revision known => by rw [only known]
      newest := fun revision known => by rw [only known]
      head := rfl
      drawn := Nat.le_refl 1
      parents := fun revision row found parent named => by
        rw [(initial_revision found).2] at named
        cases named
      sources := fun revision row found source named => by
        rw [(initial_revision found).2] at named
        cases named
      bases := fun _ _ none => by cases none
      committed := fun _ _ none => by cases none
      planBases := fun _ _ none => by cases none
      targets := fun _ _ none => by cases none
      consumed := fun _ _ none => by cases none
      reserved := fun revision known other => (other (only known)).elim
      root := .inl rfl }

theorem retained_initial : Retained {} where
  anchored := anchored_initial
  readings := fun _ _ none => by cases none
  operations := fun _ _ none => by cases none
  sweeps := fun _ _ none => by cases none

/-- In every run, with any number of sweeps of any setting under way, references stay
closed, a sweep leaves the revisions as they are whether it fails or not, what is left
is always all there ever was, and nothing is left that a setting allows to remove. -/
theorem revision_history_is_retained
    {history : List (Event HistoryWorld HistoryAction)} {final : HistoryWorld}
    (run : Follows (Step ctx) {} history final) :
    (final.WellKept ∧ ∀ event ∈ history, event.before.WellKept) ∧
      (∀ event ∈ history, ∀ call fault, event.label = .goSweep call fault →
        event.after.db.revisions = event.before.db.revisions ∧
          event.after.db.head = event.before.db.head) ∧
      history.Pairwise fun first second => KeepsSuffix first.before second.after := by
  have preserved : ∀ before action after, Step ctx before action after →
      Retained before → Retained after :=
    fun before action after step retained => (retained_step step retained).1
  have steps := run.at_events retained_initial preserved
  have last : Retained final := run.invariant Retained retained_initial preserved
  refine ⟨⟨last.wellKept, fun event member => (steps event member).2.wellKept⟩, ?_, ?_⟩
  · intro event member call fault named
    obtain ⟨step, retained⟩ := steps event member
    exact (retained_step step retained).2.swept call fault named
  · have lasts (revision : Nat) (row : RevisionRow) := (run.lasting Retained
      (fun world => world.db.revisions.get? revision = some row) retained_initial preserved
      fun before action after step retained found =>
        (retained_step step retained).2.rows revision row found).2.2
    have later := List.pairwise_iff_forall_sublist.mpr fun {first second} sublist revision row =>
      List.pairwise_iff_forall_sublist.mp (lasts revision row) sublist
    refine later.imp_of_mem fun {first second} firstMember secondMember lasting => ?_
    obtain ⟨firstStep, firstRetained⟩ := steps first firstMember
    obtain ⟨secondStep, secondRetained⟩ := steps second secondMember
    have rows : ∀ revision row, first.before.db.revisions.get? revision = some row →
        second.after.db.revisions.get? revision = some row := by
      intro revision row found
      have kept := (retained_step firstStep firstRetained).2.rows revision row found
      exact (retained_step secondStep secondRetained).2.rows revision row
        (lasting revision row kept)
    exact
      { suffix := fun revision known => .inl (by
          obtain ⟨row, found⟩ := Option.isSome_iff_exists.mp known
          exact Option.isSome_iff_exists.mpr ⟨row, rows revision row found⟩)
        rows := fun revision row found _ => rows revision row found
        head := (retained_step secondStep secondRetained).1.anchored.head }

end Runs

/-- A commit that is applied, a rollback of it, and a sweep ten days later, which finds a
changeset that was discarded. -/
def sweptRollback : List HistoryAction :=
  (onePoolInputs true).map .store ++
    [.claim "operation" "p", .bound "p", .record "operation" .activated, .applied "p",
      .store ⟨.rollbackTo 1 "back" 2, true⟩,
      .store ⟨.createChangeset "left" 3, true⟩, .store ⟨.discardChangeset "left", true⟩,
      .wait (10 * dayMs), .startSweep 0 ⟨some 1, some 1, some 1, some 1, 100⟩] ++
    List.replicate 4 (.goSweep 0 .answered)

theorem revision_history_is_retained_rolled_back :
    ∃ history final, Follows (Step plainContext) ({} : HistoryWorld) history final ∧
      final.sweeps 0 = none ∧ final.db.changesets.get? "left" = none ∧
      final.operations.keys = [] ∧ final.db.revisions.keys = [1, 2, 3] ∧ final.WellKept := by
  obtain ⟨history, final, run, _, checked⟩ :=
    @follows_of_attempt _ _ (HistoryWorld.act plainContext) ({} : HistoryWorld) sweptRollback
      (fun (_, final) =>
        decide (final.sweeps 0 = none) && (decide (final.db.changesets.get? "left" = none) &&
          (decide (final.operations.keys = []) &&
            decide (final.db.revisions.keys = [1, 2, 3]))))
      (by decide +kernel)
  simp only [Bool.and_eq_true, decide_eq_true_eq] at checked
  obtain ⟨ended, left, operations, revisions⟩ := checked
  exact ⟨history, final, run, ended, left, operations, revisions,
    (revision_history_is_retained run).1.1⟩

end HistoryWorld

end Barycenter.Control
