import Barycenter.Store.ConfigEffects

/-!
# The history of revisions

Only commits and rollbacks make revisions.  Each of them draws the next number
while it holds the head, so the newest revision is the head, and every number
that is in use has been drawn before.
-/

namespace Barycenter

namespace Store

open Config

variable {plans : OrderedMap String PlanRow}

theorem get?_expireAll {changesetId planId : String} :
    (expireAll changesetId plans).get? planId =
      (plans.get? planId).map fun plan =>
        if plan.plannedOf changesetId then { plan with state := .expired } else plan :=
  OrderedMap.get?_mapValues ..

/-! ## Epochs -/

/-- Every epoch in use has been drawn and belongs to one plan, and a plan that
nobody has consumed has none. -/
structure EpochsOnce (plans : OrderedMap String PlanRow) (epochSeq : Nat) : Prop where
  drawn : ∀ planId plan epoch, plans.get? planId = some plan →
    plan.activationEpoch = some epoch → epoch ≤ epochSeq
  once : ∀ first second firstPlan secondPlan epoch,
    plans.get? first = some firstPlan → plans.get? second = some secondPlan →
      firstPlan.activationEpoch = some epoch → secondPlan.activationEpoch = some epoch →
        first = second
  unreserved : ∀ planId plan, plans.get? planId = some plan → plan.state = .planned →
    plan.activationEpoch = none

namespace EpochsOnce

variable {plans : OrderedMap String PlanRow} {epochSeq : Nat}

theorem later (epochs : EpochsOnce plans epochSeq) {more : Nat} (drawn : epochSeq ≤ more) :
    EpochsOnce plans more :=
  { epochs with
    drawn := fun planId plan epoch found reserved =>
      Nat.le_trans (epochs.drawn planId plan epoch found reserved) drawn }

theorem expire (epochs : EpochsOnce plans epochSeq) (changesetId : String) :
    EpochsOnce (expireAll changesetId plans) epochSeq := by
  have origin : ∀ planId plan, (expireAll changesetId plans).get? planId = some plan →
      ∃ old, plans.get? planId = some old ∧ plan.activationEpoch = old.activationEpoch ∧
        (plan.state = .planned → old.state = .planned) := by
    intro planId plan found
    rw [get?_expireAll] at found
    obtain ⟨old, stored, rfl⟩ := Option.map_eq_some_iff.mp found
    refine ⟨old, stored, ?_⟩
    split <;> simp
  constructor
  case drawn =>
    intro planId plan epoch found reserved
    obtain ⟨old, stored, same, _⟩ := origin planId plan found
    exact epochs.drawn planId old epoch stored (same ▸ reserved)
  case once =>
    intro first second firstPlan secondPlan epoch firstFound secondFound firstHas secondHas
    obtain ⟨firstOld, firstStored, firstSame, _⟩ := origin first firstPlan firstFound
    obtain ⟨secondOld, secondStored, secondSame, _⟩ := origin second secondPlan secondFound
    exact epochs.once first second firstOld secondOld epoch firstStored secondStored
      (firstSame ▸ firstHas) (secondSame ▸ secondHas)
  case unreserved =>
    intro planId plan found planned
    obtain ⟨old, stored, same, unused⟩ := origin planId plan found
    exact same ▸ epochs.unreserved planId old stored (unused planned)

theorem plan (epochs : EpochsOnce plans epochSeq) (planId : String) {row : PlanRow}
    (none : row.activationEpoch = none) : EpochsOnce (plans.set planId row) epochSeq := by
  have origin : ∀ other plan epoch, (plans.set planId row).get? other = some plan →
      plan.activationEpoch = some epoch → plans.get? other = some plan := by
    intro other plan epoch found reserved
    rw [OrderedMap.get?_set] at found
    split at found
    · cases found
      rw [none] at reserved
      cases reserved
    · exact found
  constructor
  case drawn =>
    intro other plan epoch found reserved
    exact epochs.drawn other plan epoch (origin other plan epoch found reserved) reserved
  case once =>
    intro first second firstPlan secondPlan epoch firstFound secondFound firstHas secondHas
    exact epochs.once first second firstPlan secondPlan epoch
      (origin first firstPlan epoch firstFound firstHas)
      (origin second secondPlan epoch secondFound secondHas) firstHas secondHas
  case unreserved =>
    intro other plan found planned
    rw [OrderedMap.get?_set] at found
    split at found
    · exact Option.some.inj found ▸ none
    · exact epochs.unreserved other plan found planned

theorem reserve (epochs : EpochsOnce plans epochSeq) (planId : String) {row : PlanRow}
    (reserved : row.activationEpoch = some (epochSeq + 1)) (consumed : row.state ≠ .planned) :
    EpochsOnce (plans.set planId row) (epochSeq + 1) := by
  have origin : ∀ other plan, (plans.set planId row).get? other = some plan →
      (other = planId ∧ plan = row) ∨ (other ≠ planId ∧ plans.get? other = some plan) := by
    intro other plan found
    rw [OrderedMap.get?_set] at found
    split at found
    · rename_i same
      exact .inl ⟨same.symm, (Option.some.inj found).symm⟩
    · rename_i different
      exact .inr ⟨fun same => different same.symm, found⟩
  constructor
  case drawn =>
    intro other plan epoch found has
    rcases origin other plan found with ⟨_, rfl⟩ | ⟨_, old⟩
    · rw [reserved] at has
      exact Nat.le_of_eq (Option.some.inj has).symm
    · exact Nat.le_succ_of_le (epochs.drawn other plan epoch old has)
  case once =>
    intro first second firstPlan secondPlan epoch firstFound secondFound firstHas secondHas
    have newest : ∀ other plan, plans.get? other = some plan →
        plan.activationEpoch ≠ some (epochSeq + 1) := fun other plan old has =>
      Nat.not_succ_le_self _ (epochs.drawn other plan _ old has)
    rcases origin first firstPlan firstFound with ⟨rfl, rfl⟩ | ⟨_, firstOld⟩
    · rcases origin second secondPlan secondFound with ⟨rfl, _⟩ | ⟨_, secondOld⟩
      · rfl
      · rw [reserved] at firstHas
        exact (newest second secondPlan secondOld (secondHas.trans firstHas.symm)).elim
    · rcases origin second secondPlan secondFound with ⟨rfl, rfl⟩ | ⟨_, secondOld⟩
      · rw [reserved] at secondHas
        exact (newest first firstPlan firstOld (firstHas.trans secondHas.symm)).elim
      · exact epochs.once first second firstPlan secondPlan epoch firstOld secondOld
          firstHas secondHas
  case unreserved =>
    intro other plan found planned
    rcases origin other plan found with ⟨_, rfl⟩ | ⟨_, old⟩
    · exact (consumed planned).elim
    · exact epochs.unreserved other plan old planned

end EpochsOnce

/-! ## Revisions -/

/-- The head is the newest revision, and its number has been drawn. -/
structure Linear (db : ConfigDb) : Prop where
  headDrawn : db.head ≤ db.revisionSeq
  newest : ∀ revision row, db.revisions.get? revision = some row → revision ≤ db.head
  epochs : EpochsOnce db.plans db.epochSeq

theorem newest_set {revisions : OrderedMap Nat RevisionRow} {head target : Nat}
    {row : RevisionRow}
    (newest : ∀ revision row, revisions.get? revision = some row → revision ≤ head)
    (above : head ≤ target) :
    ∀ revision stored, (revisions.set target row).get? revision = some stored →
      revision ≤ target := by
  intro revision stored found
  rw [OrderedMap.get?_set] at found
  split at found
  · rename_i same
    exact Nat.le_of_eq same.symm
  · exact Nat.le_trans (newest revision stored found) above

section Invariant

variable {ctx : StoreContext}

theorem Linear.change {db after : ConfigDb} {action : StoreAction}
    (linear : Linear db) (change : Change ctx db action after) : Linear after := by
  have raised : db.head ≤ db.revisionSeq + 1 := Nat.le_succ_of_le linear.headDrawn
  cases change with
  | created known fresh | patched stored opened => exact { linear with }
  | @reopened changesetId changeset stored closed
    | @discarded changesetId changeset stored live =>
      exact { linear with epochs := linear.epochs.expire changesetId }
  | @committed changesetId planId now plan changeset applied model found owner unused fresh
      current stored tried unwritten =>
      exact
        { headDrawn := Nat.le_refl _
          newest := newest_set linear.newest raised
          epochs := linear.epochs.reserve planId rfl (by simp) }
  | @rolledBack revision planId now source model restored applied found past decoded tried
      unwritten unplanned =>
      exact
        { headDrawn := Nat.le_refl _
          newest := newest_set linear.newest raised
          epochs := linear.epochs.reserve planId rfl (by simp) }
  | @replanned planId now source model found decoded unplanned =>
      exact { linear with epochs := linear.epochs.reserve planId rfl (by simp) }

theorem Linear.effect {s next : StoreSystem} {action : StoreAction}
    (linear : Linear s.db) (effect : Effect ctx s action next) : Linear next.db := by
  cases effect with
  | drew revisions epochs | dropped revisions epochs =>
      exact
        { linear with
          headDrawn := Nat.le_trans linear.headDrawn revisions
          epochs := linear.epochs.later epochs }
  | changed change => exact linear.change change
  | begun stored | tried calling outcome => exact linear
  | @sealedPlan call now planId reading model changeset calling dried stored unplanned =>
      exact { linear with epochs := linear.epochs.plan planId rfl }

theorem linear_initial : Linear ({} : ConfigDb) := by
  constructor
  case headDrawn => exact Nat.le_refl 1
  case newest =>
    intro revision row found
    rw [OrderedMap.get?_set] at found
    split at found
    · rename_i same
      exact Nat.le_of_eq same.symm
    · simp at found
  case epochs =>
    constructor <;> intros <;> simp_all

variable {before after : StoreSystem} {label : StoreLabel}

theorem linear_step
    (step : StoreStep ctx before label after) (linear : Linear before.db) : Linear after.db :=
  linear.effect (act_effect step).2

/-! ## What lasts -/

def Assigned (epoch revision : Nat) (s : StoreSystem) : Prop :=
  ∃ planId plan, s.db.plans.get? planId = some plan ∧
    plan.activationEpoch = some epoch ∧ plan.targetRevision = some revision

variable {planId : String} {changesetId : String}

theorem assigned_expire {plan : PlanRow} (found : plans.get? planId = some plan) :
    ∃ expired, (expireAll changesetId plans).get? planId = some expired ∧
      expired.activationEpoch = plan.activationEpoch ∧
      expired.targetRevision = plan.targetRevision := by
  refine ⟨_, by rw [get?_expireAll, found]; rfl, ?_⟩
  dsimp only
  split <;> exact ⟨rfl, rfl⟩

variable {epoch : Nat}

theorem get?_set_kept {other : String} {plan row : PlanRow}
    (found : plans.get? planId = some plan) (reserved : plan.activationEpoch = some epoch)
    (unreserved : ∀ old, plans.get? other = some old → old.activationEpoch = none) :
    (plans.set other row).get? planId = some plan := by
  have different : other ≠ planId := by
    rintro rfl
    rw [unreserved plan found] at reserved
    cases reserved
  rw [OrderedMap.get?_set_other _ _ different, found]

theorem assigned_step {revision : Nat}
    (step : StoreStep ctx before label after) (linear : Linear before.db)
    (assigned : Assigned epoch revision before) : Assigned epoch revision after := by
  obtain ⟨planId, plan, found, reserved, target⟩ := assigned
  obtain ⟨-, effect⟩ := act_effect step
  generalize label.1.action = action at effect
  cases effect with
  | drew revisions epochs | begun stored | tried calling outcome | dropped revisions epochs =>
      exact ⟨planId, plan, found, reserved, target⟩
  | sealedPlan calling dried stored unplanned =>
      refine ⟨planId, plan, get?_set_kept found reserved ?_, reserved, target⟩
      intro old stored
      rw [unplanned] at stored
      cases stored
  | changed change =>
      cases change with
      | created known fresh | patched stored opened => exact ⟨planId, plan, found, reserved, target⟩
      | reopened stored closed | discarded stored live =>
          obtain ⟨expired, kept, sameEpoch, sameTarget⟩ := assigned_expire found
          exact ⟨planId, expired, kept, sameEpoch.trans reserved, sameTarget.trans target⟩
      | committed consumed owner unused fresh current stored tried unwritten =>
          refine ⟨planId, plan, get?_set_kept found reserved ?_, reserved, target⟩
          intro old stored
          rw [consumed] at stored
          exact Option.some.inj stored ▸ linear.epochs.unreserved _ _ consumed unused
      | rolledBack source past decoded tried unwritten unplanned
        | replanned source decoded unplanned =>
          refine ⟨planId, plan, get?_set_kept found reserved ?_, reserved, target⟩
          intro old stored
          rw [unplanned] at stored
          cases stored

theorem assigned_once {s : StoreSystem} {first second : Nat} (linear : Linear s.db)
    (firstly : Assigned epoch first s) (secondly : Assigned epoch second s) :
    first = second := by
  obtain ⟨firstId, firstPlan, firstFound, firstEpoch, firstTarget⟩ := firstly
  obtain ⟨secondId, secondPlan, secondFound, secondEpoch, secondTarget⟩ := secondly
  obtain rfl := linear.epochs.once firstId secondId firstPlan secondPlan epoch firstFound
    secondFound firstEpoch secondEpoch
  cases firstFound.symm.trans secondFound
  exact Option.some.inj (firstTarget.symm.trans secondTarget)

def Stored (holds : PlanRow → Prop) (planId : String) (s : StoreSystem) : Prop :=
  ∃ plan, s.db.plans.get? planId = some plan ∧ holds plan

section Lasting

variable {holds : PlanRow → Prop} (consumed : ∀ plan, plan.state ≠ .planned → holds plan)
include consumed

variable {planId : String}

theorem holds_expire {plan : PlanRow} (found : plans.get? planId = some plan) (held : holds plan) :
    ∃ expired, (expireAll changesetId plans).get? planId = some expired ∧ holds expired := by
  refine ⟨_, by rw [get?_expireAll, found]; rfl, ?_⟩
  dsimp only
  split
  · exact consumed _ (by simp)
  · exact held

omit consumed in
theorem holds_set {other : String} {plan row : PlanRow} (found : plans.get? planId = some plan)
    (held : holds plan) (allowed : plans.get? other = none ∨ holds row) :
    ∃ stored, (plans.set other row).get? planId = some stored ∧ holds stored := by
  rw [OrderedMap.get?_set]
  split
  · rename_i same
    subst same
    rcases allowed with fresh | kept
    · rw [fresh] at found
      cases found
    · exact ⟨row, rfl, kept⟩
  · exact ⟨plan, found, held⟩

theorem stored_step {before after : StoreSystem} {label : StoreLabel}
    (step : StoreStep ctx before label after) (stored : Stored holds planId before) :
    Stored holds planId after := by
  obtain ⟨plan, found, held⟩ := stored
  obtain ⟨-, effect⟩ := act_effect step
  generalize label.1.action = action at effect
  cases effect with
  | drew revisions epochs | begun stored | tried calling outcome | dropped revisions epochs =>
      exact ⟨plan, found, held⟩
  | sealedPlan calling dried stored unplanned => exact holds_set found held (.inl unplanned)
  | changed change =>
      cases change with
      | created known fresh | patched stored opened => exact ⟨plan, found, held⟩
      | reopened stored closed | discarded stored live => exact holds_expire consumed found held
      | committed used owner planned fresh current stored tried unwritten =>
          exact holds_set found held (.inr (consumed _ (by simp)))
      | rolledBack source past decoded tried unwritten unplanned =>
          exact holds_set found held (.inl unplanned)
      | replanned source decoded unplanned => exact holds_set found held (.inl unplanned)

end Lasting

def Spent (planId : String) (s : StoreSystem) : Prop :=
  ∃ plan, s.db.plans.get? planId = some plan ∧ plan.state ≠ .planned

theorem spent_step (step : StoreStep ctx before label after) (spent : Spent planId before) :
    Spent planId after :=
  stored_step (fun _ => id) step spent

/-! ## Events -/

abbrev StoreEvent := Event StoreSystem StoreLabel

/-- The event consumed a plan: a commit of it moved the head. -/
def Consumes (event : StoreEvent) (planId : String) : Prop :=
  (∃ changesetId now, event.label.1.action = .commit changesetId planId now) ∧
    event.before.db.head ≠ event.after.db.head

/-- No revision was made, or one was: its number is above the head, its parent
is the head, and it is the new head. -/
def Advances (event : StoreEvent) : Prop :=
  (event.after.db.head = event.before.db.head ∧
      event.after.db.revisions = event.before.db.revisions) ∨
    (event.before.db.head < event.after.db.head ∧
      event.before.db.revisions.get? event.after.db.head = none ∧
      ∃ row, row.parent = some event.before.db.head ∧
        event.after.db.revisions =
          event.before.db.revisions.set event.after.db.head row)

theorem advances_of_step {event : StoreEvent}
    (step : StoreStep ctx event.before event.label event.after)
    (linear : Linear event.before.db) : Advances event := by
  obtain ⟨before, label, after⟩ := event
  have effect : Effect ctx before label.1.action after := (act_effect step).2
  have above := Nat.lt_succ_of_le linear.headDrawn
  generalize label.1.action = action at effect
  cases effect with
  | drew revisions epochs | begun stored | tried calling outcome | dropped revisions epochs
    | sealedPlan calling dried stored unplanned => exact .inl ⟨rfl, rfl⟩
  | changed change =>
      cases change with
      | created known fresh | patched stored opened | reopened stored closed
        | discarded stored live => exact .inl ⟨rfl, rfl⟩
      | committed consumed owner planned fresh current stored tried unwritten
        | rolledBack source past decoded tried unwritten unplanned =>
          exact .inr ⟨above, unwritten, _, rfl, rfl⟩
      | replanned source decoded unplanned => exact .inl ⟨rfl, rfl⟩

/-- A commit that moved the head consumed a plan that was planned before it and
is spent after it. -/
theorem spends_of_consumes {event : StoreEvent}
    (step : StoreStep ctx event.before event.label event.after)
    (consumes : Consumes event planId) :
    ¬Spent planId event.before ∧ Spent planId event.after := by
  obtain ⟨before, label, after⟩ := event
  obtain ⟨⟨changesetId, now, named⟩, moved⟩ := consumes
  have effect : Effect ctx before label.1.action after := (act_effect step).2
  change label.1.action = .commit changesetId planId now at named
  rw [named] at effect
  cases effect with
  | drew revisions epochs | dropped revisions epochs => exact (moved rfl).elim
  | changed change =>
      cases change with
      | committed found owner unused fresh current stored tried unwritten =>
          constructor
          · rintro ⟨plan, stored, spent⟩
            cases found.symm.trans stored
            exact spent unused
          · exact ⟨_, OrderedMap.get?_set_same .., by simp⟩

theorem untouched_of_refused {revision now : Nat} {failure : Failure}
    (step : StoreStep ctx before label after)
    (moving : label.1.action = .commit changesetId planId now ∨
      label.1.action = .rollbackTo revision planId now) (failed : label.2 = .error failure)
    (audited : label.1.audited = true) :
    ∃ revisionSeq epochSeq, after.db = before.db.drawn revisionSeq epochSeq := by
  obtain ⟨⟨action, recorded⟩, answer⟩ := label
  obtain rfl : recorded = true := audited
  have outcome {α : Type} {script : StoreScript α} {reply : α → StoreReply}
      (performed : transacted ctx ⟨action, true⟩ before script reply =
        ((⟨action, true⟩, answer), after)) :
      ∃ revisionSeq epochSeq, after.db = before.db.drawn revisionSeq epochSeq := by
    rcases @transacted_cases ctx α ⟨action, true⟩ before script reply with
      ⟨value, reached, succeeded, same⟩ | refused
    · obtain ⟨answered, _⟩ := Prod.mk.inj (same.symm.trans performed)
      cases (Prod.mk.inj answered).2.trans failed
    · obtain ⟨refusal, revisionSeq, epochSeq, _, _, same⟩ := refused
      obtain ⟨_, rfl⟩ := Prod.mk.inj (same.symm.trans performed)
      exact ⟨revisionSeq, epochSeq, rfl⟩
  rcases moving with rfl | rfl
  · exact outcome (Option.some.inj step)
  · exact outcome (Option.some.inj step)

/-- Revisions form one line, plans are consumed once, epochs are not reused, and
an action that fails before its record leaves everything as it was. -/
theorem revision_history_is_linear {history : List StoreEvent} {final : StoreSystem}
    (run : Follows (StoreStep ctx) {} history final) :
    (∀ event ∈ history, Advances event) ∧
      (history.Pairwise fun first second =>
        ∀ planId, Consumes first planId → ¬Consumes second planId) ∧
      (∀ first ∈ history, ∀ second ∈ history, ∀ epoch revision other,
        Assigned epoch revision first.after → Assigned epoch other second.after →
          revision = other) ∧
      ∀ event ∈ history, ∀ changesetId planId revision now failure,
        (event.label.1.action = .commit changesetId planId now ∨
            event.label.1.action = .rollbackTo revision planId now) →
          event.label.2 = .error failure → event.label.1.audited = true →
            event.after.db.tables = event.before.db.tables ∧
              event.after.db.head = event.before.db.head ∧
              event.after.db.revisions = event.before.db.revisions ∧
              event.after.db.plans = event.before.db.plans ∧
              event.after.db.changesets = event.before.db.changesets := by
  have preserved : ∀ before label after, StoreStep ctx before label after →
      Linear before.db → Linear after.db := fun _ _ _ step linear => linear_step step linear
  have steps := run.at_events linear_initial preserved
  refine ⟨?_, ?_, ?_, ?_⟩
  · intro event member
    obtain ⟨step, linear⟩ := steps event member
    exact advances_of_step step linear
  · have pairwise (planId : String) := (run.lasting (fun _ => True) (Spent planId) trivial
      (fun _ _ _ _ _ => trivial) fun _ _ _ step _ spent => spent_step step spent).2.2
    have later := List.pairwise_iff_forall_sublist.mpr fun {first second} sublist planId =>
      List.pairwise_iff_forall_sublist.mp (pairwise planId) sublist
    refine later.imp_of_mem fun {first second} firstMember secondMember spends planId
      firstly secondly => ?_
    have spent := (spends_of_consumes (steps first firstMember).1 firstly).2
    exact (spends_of_consumes (steps second secondMember).1 secondly).1 (spends planId spent)
  · intro first firstMember second secondMember epoch revision other firstly secondly
    have kept (target : Nat) := (run.lasting (fun s => Linear s.db) (Assigned epoch target)
      linear_initial preserved fun _ _ _ step linear assigned =>
        assigned_step step linear assigned).2.1
    have linear : Linear final.db := run.invariant _ linear_initial preserved
    exact assigned_once linear (kept revision first firstMember firstly)
      (kept other second secondMember secondly)
  · intro event member changesetId planId revision now failure moving failed audited
    obtain ⟨revisionSeq, epochSeq, same⟩ :=
      untouched_of_refused (steps event member).1 moving failed audited
    rw [same]
    exact ⟨rfl, rfl, rfl, rfl, rfl⟩

end Invariant

def onePoolInputs (recorded : Bool) : List StoreInput :=
  [⟨.createChangeset "c" 1, true⟩, ⟨.patchChangeset "c" [putsPool "app"], true⟩,
    ⟨.planRead 0 "c", true⟩, ⟨.planDryRun 0 {}, true⟩, ⟨.planSeal 0 "p" 0, true⟩,
    ⟨.commit "c" "p" 1, recorded⟩]

/-- The record of a commit fails on its own: the commit fails and its revision
stands. -/
theorem unrecorded_commit_moves_head :
    ∃ history final, Follows (StoreStep plainContext) {} history final ∧
      ∃ event ∈ history, event.label.1.action = .commit "c" "p" 1 ∧
        event.label.2 = .error auditFailure ∧
          event.after.db.head ≠ event.before.db.head := by
  obtain ⟨history, final, run, passed⟩ := exists_run_of_performInputs
    (onePoolInputs false)
    (fun history _ => history.any fun event =>
      decide (event.label.1.action = .commit "c" "p" 1) &&
        decide (event.label.2 = .error auditFailure) &&
          decide (event.after.db.head ≠ event.before.db.head))
    (by decide +kernel)
  refine ⟨history, final, run, ?_⟩
  simpa [and_assoc] using passed

theorem revision_history_is_linear_of_commit :
    ∃ history final, Follows (StoreStep plainContext) {} history final ∧
      final.db.head = 2 ∧ ∀ event ∈ history, Advances event := by
  obtain ⟨history, final, run, passed⟩ := exists_run_of_performInputs (onePoolInputs true)
    (fun _ final => decide (final.db.head = 2)) (by decide +kernel)
  exact ⟨history, final, run, of_decide_eq_true passed, (revision_history_is_linear run).1⟩

end Store

end Barycenter
