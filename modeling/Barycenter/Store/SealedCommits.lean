import Barycenter.Store.PlanFidelity

/-!
# Which changesets are committed

A plan of a changeset that is reopened or discarded expires with it, so such a
changeset needs a new plan.  Sealing does not look at whether the changeset is
still live, so a plan that was being made meanwhile is inserted all the same.
-/

namespace Barycenter

namespace Store

open Config

/-- The changeset whose plan is sealed has not been discarded. -/
def SealsLive (s : StoreSystem) (action : StoreAction) : Prop :=
  ∀ call planId now reading row, action = .planSeal call planId now →
    s.planning.get? call = some reading →
      s.db.changesets.get? reading.changesetId = some row → row.state ≠ .discarded

/-- A plan that nobody has consumed belongs to a changeset that nobody has
discarded. -/
def PlansLive (db : ConfigDb) : Prop :=
  ∀ planId plan changesetId row, db.plans.get? planId = some plan → plan.state = .planned →
    plan.changesetId = some changesetId → db.changesets.get? changesetId = some row →
      row.state ≠ .discarded

/-- The head has moved past the base of a changeset that is committed. -/
def CommittedBelow (db : ConfigDb) : Prop :=
  ∀ changesetId row, db.changesets.get? changesetId = some row → row.state = .committed →
    row.baseRevision < db.head

section Steps

variable {ctx : StoreContext} {s next : StoreSystem} {action : StoreAction}

theorem PlansLive.effect (live : PlansLive s.db) (closed : PlansClosed s.db)
    (seals : SealsLive s action) (effect : Effect ctx s action next) : PlansLive next.db := by
  intro planId plan changesetId row found planned owner stored
  by_cases old : s.db.plans.get? planId = some plan
  · obtain ⟨owned, before, owner', there, _, notOpened⟩ := closed planId plan old planned
    cases owner.symm.trans owner'
    obtain ⟨after, kept, same⟩ := changeset_kept effect found planned owner there notOpened
    cases stored.symm.trans kept
    exact fun discarded =>
      live planId plan changesetId before old planned owner there (same.undiscarded discarded)
  · rcases planned_cases effect found planned with still | ⟨⟨sealing⟩⟩
    · exact (old still).elim
    · obtain ⟨sealedRow, sealedStored, _, _, state⟩ := row_of_sealing effect sealing found old
      have named := congrArg PlanRow.changesetId sealing.inserted
      cases owner.symm.trans named
      cases stored.symm.trans sealedStored
      rw [state]
      split
      · simp
      · exact seals sealing.call planId sealing.now sealing.reading sealing.changeset
          sealing.named sealing.calling sealing.stored

theorem CommittedBelow.effect (below : CommittedBelow s.db) (linear : Linear s.db)
    (planning : Planning ctx s) (effect : Effect ctx s action next) :
    CommittedBelow next.db := by
  intro changesetId row found committed
  have raised : s.db.head ≤ next.db.head := by
    rcases head_cases linear effect with ⟨same, _⟩ | ⟨above, _⟩
    · exact Nat.le_of_eq same.symm
    · exact Nat.le_of_lt above
  rcases row_origin linear effect found with ⟨before, stored, base, origin⟩ | ⟨opened, _⟩
  · rw [← base]
    rcases origin committed with already | moved
    · exact Nat.lt_of_lt_of_le (below changesetId before stored already) raised
    · exact Nat.lt_of_le_of_lt (planning.basesBelow changesetId before stored) moved
  · rw [opened] at committed
    cases committed

/-- The event reopened or discarded the changeset: it succeeded, or the row has
changed and the record of it has failed. -/
def Withdraws (event : StoreEvent) (changesetId : String) : Prop :=
  (event.label.1.action = .reopen changesetId ∨
      event.label.1.action = .discardChangeset changesetId) ∧
    ((∃ reply, event.label.2 = .ok reply) ∨
      event.before.db.changesets.get? changesetId ≠ event.after.db.changesets.get? changesetId)

/-- A plan that no commit of the changeset can consume. -/
def Barred (changesetId planId : String) (s : StoreSystem) : Prop :=
  Stored (fun plan => plan.plannedOf changesetId = false) planId s

theorem barred_step {before after : StoreSystem} {label : StoreLabel}
    {changesetId planId : String} (step : StoreStep ctx before label after)
    (barred : Barred changesetId planId before) : Barred changesetId planId after :=
  stored_step (fun plan consumed => by simp [PlanRow.plannedOf, consumed]) step barred

theorem expired_of_withdraws {event : StoreEvent} {changesetId : String}
    (step : StoreStep ctx event.before event.label event.after)
    (withdraws : Withdraws event changesetId) :
    event.after.db.plans = expireAll changesetId event.before.db.plans := by
  obtain ⟨before, ⟨⟨action, audited⟩, answer⟩, after⟩ := event
  obtain ⟨named, made⟩ := withdraws
  have outcome {script : StoreScript Unit}
      (performed : transacted ctx ⟨action, audited⟩ before script (fun _ => .done) =
        ((⟨action, audited⟩, answer), after))
      (change : ∀ reached, script before.db = (.ok (), reached) →
        reached.plans = expireAll changesetId before.db.plans) :
      after.db.plans = expireAll changesetId before.db.plans := by
    rcases transacted_cases ⟨action, audited⟩ before script (fun _ => .done) with
      ⟨_, reached, succeeded, same⟩ | refused
    · obtain ⟨_, rfl⟩ := Prod.mk.inj (same.symm.trans performed)
      exact change reached succeeded
    · obtain ⟨refusal, revisionSeq, epochSeq, _, _, same⟩ := refused
      obtain ⟨answered, rfl⟩ := Prod.mk.inj (same.symm.trans performed)
      rcases made with ⟨reply, answeredOk⟩ | moved
      · cases (Prod.mk.inj answered).2.trans answeredOk
      · exact (moved rfl).elim
  rcases named with rfl | rfl
  · refine outcome (Option.some.inj step) fun reached succeeded => ?_
    cases @reopen_change ctx _ _ _ _ succeeded
    rfl
  · refine outcome (Option.some.inj step) fun reached succeeded => ?_
    cases @discardChangeset_change ctx _ _ _ _ succeeded
    rfl

/-- After a changeset is reopened or discarded, the plans there are cannot
commit it. -/
theorem barred_of_withdraws {event : StoreEvent} {changesetId planId : String} {plan : PlanRow}
    (step : StoreStep ctx event.before event.label event.after)
    (withdraws : Withdraws event changesetId)
    (found : event.after.db.plans.get? planId = some plan) :
    Barred changesetId planId event.after := by
  refine ⟨plan, found, ?_⟩
  rw [expired_of_withdraws step withdraws, get?_expireAll] at found
  obtain ⟨old, stored, rfl⟩ := Option.map_eq_some_iff.mp found
  split
  · simp [PlanRow.plannedOf]
  · rename_i spared
    exact Bool.eq_false_iff.mpr spared

end Steps

section Runs

variable {ctx : StoreContext}

/-- Whenever no plan of a discarded changeset is sealed, a commit is of a sealed
changeset; and a changeset that is reopened or discarded is only committed with
a plan that was not there yet. -/
theorem commits_are_of_sealed_changesets {history : List StoreEvent} {final : StoreSystem}
    (run : Follows (StoreStep ctx) {} history final)
    (live : ∀ event ∈ history, SealsLive event.before event.label.1.action) :
    (∀ event ∈ history, ∀ changesetId planId, Commits event changesetId planId →
        ∃ row, event.before.db.changesets.get? changesetId = some row ∧ row.state = .sealed) ∧
      history.Pairwise fun first second => ∀ changesetId planId,
        Withdraws first changesetId → Commits second changesetId planId →
          first.after.db.plans.get? planId = none := by
  have throughout := run.throughout
    (fun s => Sound ctx s ∧ PlansLive s.db ∧ CommittedBelow s.db)
    ⟨sound_initial, fun planId plan _ _ found => by simp at found,
      fun changesetId row found => by simp at found⟩
    fun event member step ⟨sound, plansLive, below⟩ =>
      have effect := (act_effect step).2
      ⟨sound.step step, plansLive.effect sound.closed (live event member) effect,
        below.effect sound.linear sound.planning effect⟩
  have steps := run.at_events trivial fun _ _ _ _ _ => trivial
  constructor
  · intro event member changesetId planId commits
    obtain ⟨plan, row, revision, found, planned, owner, atHead, stored, _, _⟩ :=
      facts_of_commits (steps event member).1 commits
    obtain ⟨sound, plansLive, below⟩ := throughout event member
    obtain ⟨_, closedRow, owner', stored', base, notOpened⟩ :=
      sound.closed planId plan found planned
    cases owner.symm.trans owner'
    cases stored.symm.trans stored'
    refine ⟨row, stored, ?_⟩
    cases state : row.state with
    | sealed => rfl
    | opened => exact (notOpened state).elim
    | discarded =>
        exact (plansLive planId plan changesetId row found planned owner stored state).elim
    | committed =>
        have moved := below changesetId row stored state
        rw [base, atHead] at moved
        exact (Nat.lt_irrefl _ moved).elim
  · have pairwise (changesetId planId : String) := (run.lasting (fun _ => True)
      (Barred changesetId planId) trivial (fun _ _ _ _ _ => trivial)
      fun _ _ _ step _ barred => barred_step step barred).2.2
    have later := List.pairwise_iff_forall_sublist.mpr
      fun {first second} sublist changesetId planId =>
        List.pairwise_iff_forall_sublist.mp (pairwise changesetId planId) sublist
    refine later.imp_of_mem fun {first second} firstMember secondMember lasts changesetId planId
      withdraws commits => ?_
    cases known : first.after.db.plans.get? planId with
    | none => rfl
    | some plan =>
        have barred := lasts changesetId planId
          (barred_of_withdraws (steps first firstMember).1 withdraws known)
        obtain ⟨stored, found, spared⟩ := barred
        obtain ⟨committed, _, _, there, planned, owner, _, _, _, _⟩ :=
          facts_of_commits (steps second secondMember).1 commits
        cases found.symm.trans there
        simp [PlanRow.plannedOf, planned, owner] at spared

end Runs

/-- A changeset that is discarded while a plan of it is in the making is
committed all the same. -/
theorem discarded_changeset_is_committed :
    ∃ history final, Follows (StoreStep plainContext) {} history final ∧
      ∃ event ∈ history, event.label.1.action = .commit "c" "p" 1 ∧
        event.label.2 = .ok (.reserved 2 1) ∧
          ∃ row, event.before.db.changesets.get? "c" = some row ∧ row.state = .discarded := by
  obtain ⟨history, final, run, passed⟩ := exists_run_of_performInputs
    [⟨.createChangeset "c" 1, true⟩, ⟨.patchChangeset "c" [putsPool "app"], true⟩,
      ⟨.planRead 0 "c", true⟩, ⟨.planDryRun 0 {}, true⟩, ⟨.discardChangeset "c", true⟩,
      ⟨.planSeal 0 "p" 0, true⟩, ⟨.commit "c" "p" 1, true⟩]
    (fun history _ => history.any fun event =>
      decide (event.label.1.action = .commit "c" "p" 1) &&
        decide (event.label.2 = .ok (.reserved 2 1)) &&
          (event.before.db.changesets.get? "c").any fun row : ChangesetRow =>
            decide (row.state = .discarded))
    (by decide +kernel)
  refine ⟨history, final, run, ?_⟩
  simpa [and_assoc, Option.any_eq_true] using passed

/-- Whether the changeset whose plan is sealed has not been discarded. -/
def sealsLive (s : StoreSystem) (action : StoreAction) : Bool :=
  match action with
  | .planSeal call _ _ =>
      (s.planning.get? call).all fun reading =>
        (s.db.changesets.get? reading.changesetId).all fun row =>
          decide (row.state ≠ .discarded)
  | _ => true

theorem sealsLive_sound {s : StoreSystem} {action : StoreAction}
    (passed : sealsLive s action = true) : SealsLive s action := by
  rintro call planId now reading row rfl calling stored
  simpa [sealsLive, calling, stored] using passed

theorem commits_are_of_sealed_changesets_of_replan :
    ∃ history final, Follows (StoreStep plainContext) {} history final ∧
      ∃ event ∈ history, Commits event "c" "q" ∧
        ∃ row, event.before.db.changesets.get? "c" = some row ∧ row.state = .sealed := by
  obtain ⟨history, final, run, passed⟩ := exists_run_of_performInputs
    [⟨.createChangeset "c" 1, true⟩, ⟨.patchChangeset "c" [putsPool "app"], true⟩,
      ⟨.planRead 0 "c", true⟩, ⟨.planDryRun 0 {}, true⟩, ⟨.planSeal 0 "p" 0, true⟩,
      ⟨.reopen "c", true⟩, ⟨.planRead 0 "c", true⟩, ⟨.planDryRun 0 {}, true⟩,
      ⟨.planSeal 0 "q" 0, true⟩, ⟨.commit "c" "q" 1, true⟩]
    (fun history _ =>
      (history.all fun event => sealsLive event.before event.label.1.action) &&
        history.any fun event =>
          decide (event.label.1.action = .commit "c" "q" 1) &&
            decide (event.label.2 = .ok (.reserved 2 1)))
    (by decide +kernel)
  obtain ⟨live, ⟨event, member, committed, answered⟩⟩ := by
    simpa [and_assoc] using passed
  have commits : Commits event "c" "q" := ⟨⟨1, committed⟩, .inl ⟨_, answered⟩⟩
  exact ⟨history, final, run, event, member, commits,
    (commits_are_of_sealed_changesets run
      fun event member => sealsLive_sound (live event member)).1 event member "c" "q" commits⟩

end Store

end Barycenter
