import Barycenter.Control.ApplyCalls
import Barycenter.Foundation.History

/-!
# What an automatic apply carries

A revision contains everything before it, so an apply sends the changes of every
revision between the active one and its own.  The guard of an automatic apply
asks for plans that are pending; a plan that has an operation is not, whether
the operation is active, still running, failed or cancelled.  An automatic apply
carries automatic changes only as long as, whenever the guard asks, every user's
revision above the active one is still untried, and no outcome that is recorded
takes the active revision back.
-/

namespace Barycenter.Control

open Config
open Dp (ApplyPhase)

/-! ## Revisions and their models -/

/-- The revisions that an apply of one revision over another brings in. -/
def broughtIn (revisions : List RevisionEntry) (low high : Nat) : List RevisionEntry :=
  revisions.filter fun entry => low < entry.number && entry.number ≤ high

theorem modelOf_append (revisions : List RevisionEntry) {entry : RevisionEntry} {number : Nat}
    (above : number < entry.number) :
    modelOf (revisions ++ [entry]) number = modelOf revisions number := by
  simp [modelOf, Nat.not_le.mpr above]

/-- In a growing history the model of a revision is the model of an older one
with the changes in between made in their order. -/
theorem modelOf_broughtIn {revisions : List RevisionEntry}
    (sorted : revisions.Pairwise fun first second => first.number < second.number)
    {low high : Nat} (ordered : low ≤ high) :
    modelOf revisions high =
      (broughtIn revisions low high).foldl changed (modelOf revisions low) := by
  have split : revisions.filter (fun entry => entry.number ≤ high) =
      revisions.filter (fun entry => entry.number ≤ low) ++ broughtIn revisions low high := by
    induction revisions with
    | nil => rfl
    | cons entry rest induction =>
        obtain ⟨before, restSorted⟩ := List.pairwise_cons.mp sorted
        by_cases old : entry.number ≤ low
        · have within : entry.number ≤ high := Nat.le_trans old ordered
          simp only [broughtIn] at induction ⊢
          simp [old, within, Nat.not_lt.mpr old, induction restSorted]
        · have late : rest.filter (fun other => other.number ≤ low) = [] := by
            rw [List.filter_eq_nil_iff]
            intro other inside
            have follows := before other inside
            simp only [decide_eq_true_eq]
            omega
          have here := induction restSorted
          rw [late, List.nil_append] at here
          simp only [broughtIn] at here ⊢
          simp [old, Nat.lt_of_not_le old, late, here, List.filter_cons]
  rw [modelOf, split, List.foldl_append]
  rfl

namespace World

variable {ι : Type}

/-! ## The property and its condition -/

/-- Every revision that applying this one would bring in was committed
automatically. -/
def OnlyAutomatic (world : World ι) (revision : Nat) : Prop :=
  ∀ entry ∈ broughtIn world.revisions world.active revision, entry.automatic = true

/-- The plan that a call is about to send to the data plane by itself. -/
def sending : Call → Option ReservedPlan
  | .driving plan _ true => some plan
  | .pushing plan _ true => some plan
  | _ => none

/-- The model is that of the active revision with automatic changes only. -/
def CarriesAutomatic (world : World ι) (plan : ReservedPlan) : Prop :=
  world.OnlyAutomatic plan.revision ∧
    (world.active ≤ plan.revision → plan.model =
      (broughtIn world.revisions world.active plan.revision).foldl changed
        (modelOf world.revisions world.active))

/-- A revision that nobody has tried to apply, and that no newer active revision
has overtaken. -/
def Untried (world : World ι) (revision : Nat) : Prop :=
  (∃ plan ∈ world.plans, plan.targetRevision = some revision ∧
      plan.activationEpoch.isSome = true ∧ plan.state = .committed ∧
      operationOfPlan world.operations plan.id = none) ∧
    activatedRevision world.operations < revision

/-- Where the guard asks, every user's revision above the active one is untried;
where an outcome is recorded, it does not take the active revision back. -/
def Careful (world : World ι) : Action ι → Prop
  | .go caller _ =>
      match world.calls caller with
      | .guarding _ =>
          ∀ entry ∈ world.revisions, world.active < entry.number → entry.automatic = false →
            world.Untried entry.number
      | .recording _ id phase partialTransition =>
          world.active ≤
            (activeRevision (recordOutcome world.operations id phase partialTransition)).getD 0
      | _ => True
  | _ => True

/-! ## What holds along a run -/

/-- Revisions grow up to the head, and a plan of a revision has its model. -/
structure Sound (world : World ι) : Prop where
  sorted : world.revisions.Pairwise fun first second => first.number < second.number
  below : ∀ entry ∈ world.revisions, entry.number ≤ world.head
  drawn : world.head ≤ world.revisionSeq
  distinct : (world.plans.map PlanEntry.id).Nodup
  models : ∀ plan ∈ world.plans, ∀ revision, plan.targetRevision = some revision →
    revision ≤ world.head ∧ plan.model = modelOf world.revisions revision

/-- A call that applies by itself has passed the guard, and its plan brings in
automatic changes only. -/
def Granted (world : World ι) (planId : String) : Prop :=
  ∃ plan ∈ world.plans, plan.id = planId ∧ ∃ revision, plan.targetRevision = some revision ∧
    world.OnlyAutomatic revision

def Holds (world : World ι) (plan : ReservedPlan) : Prop :=
  plan.revision ≤ world.head ∧ plan.model = modelOf world.revisions plan.revision ∧
    world.OnlyAutomatic plan.revision

def Ready (world : World ι) : Call → Prop
  | .guarding planId =>
      ∃ plan ∈ world.plans, plan.id = planId ∧
        ∃ entry ∈ world.revisions, entry.automatic = true ∧
          plan.targetRevision = some entry.number
  | .looking planId automatic | .heading planId automatic =>
      automatic = true → world.Granted planId
  | .comparing plan automatic | .choosing plan _ automatic | .building plan _ automatic
  | .binding plan _ automatic | .driving plan _ automatic | .leading plan _ _ automatic
  | .pushing plan _ automatic => automatic = true → world.Holds plan
  | .claiming plan entry automatic | .inserting plan entry automatic =>
      entry.activated = false ∧ (automatic = true → world.Holds plan)
  | _ => True

/-- Nothing that an automatic call relies on is taken back. -/
structure Grows (before after : World ι) : Prop where
  revisions : ∃ more, after.revisions = before.revisions ++ more ∧
    ∀ entry ∈ more, before.head < entry.number
  plans : ∀ plan ∈ before.plans, ∃ kept ∈ after.plans,
    kept.id = plan.id ∧ kept.targetRevision = plan.targetRevision
  head : before.head ≤ after.head
  active : before.active ≤ after.active

namespace Grows

variable {before after : World ι} (grows : before.Grows after)
include grows

theorem modelOf_kept {number : Nat} (within : number ≤ before.head) :
    modelOf after.revisions number = modelOf before.revisions number := by
  obtain ⟨more, same, above⟩ := grows.revisions
  have none : more.filter (fun entry => entry.number ≤ number) = [] := by
    rw [List.filter_eq_nil_iff]
    intro entry inside
    have late := above entry inside
    simp only [decide_eq_true_eq]
    omega
  rw [same, modelOf, modelOf, List.filter_append, none, List.append_nil]

theorem onlyAutomatic {revision : Nat} (within : revision ≤ before.head)
    (only : before.OnlyAutomatic revision) : after.OnlyAutomatic revision := by
  obtain ⟨more, same, above⟩ := grows.revisions
  intro entry inside
  obtain ⟨member, range⟩ := List.mem_filter.mp inside
  simp only [Bool.and_eq_true, decide_eq_true_eq] at range
  rw [same] at member
  rcases List.mem_append.mp member with old | new
  · apply only entry
    refine List.mem_filter.mpr ⟨old, ?_⟩
    simp only [Bool.and_eq_true, decide_eq_true_eq]
    exact ⟨Nat.lt_of_le_of_lt grows.active range.1, range.2⟩
  · have late := above entry new
    omega

theorem holds {plan : ReservedPlan} (held : before.Holds plan) : after.Holds plan := by
  obtain ⟨within, model, only⟩ := held
  refine ⟨Nat.le_trans within grows.head, ?_, grows.onlyAutomatic within only⟩
  rw [grows.modelOf_kept within]
  exact model

theorem granted (sound : before.Sound) {planId : String} (granted : before.Granted planId) :
    after.Granted planId := by
  obtain ⟨plan, inside, named, revision, targets, only⟩ := granted
  obtain ⟨kept, there, sameId, sameTarget⟩ := grows.plans plan inside
  exact ⟨kept, there, sameId.trans named, revision, sameTarget.trans targets,
    grows.onlyAutomatic (sound.models plan inside revision targets).1 only⟩

theorem ready (sound : before.Sound) {call : Call} (ready : before.Ready call) :
    after.Ready call := by
  cases call with
  | guarding planId =>
      obtain ⟨more, same, -⟩ := grows.revisions
      obtain ⟨plan, inside, named, entry, member, automatic, targets⟩ := ready
      obtain ⟨kept, there, sameId, sameTarget⟩ := grows.plans plan inside
      exact ⟨kept, there, sameId.trans named, entry, same ▸ List.mem_append_left _ member,
        automatic, sameTarget.trans targets⟩
  | looking | heading => exact fun automatic => grows.granted sound (ready automatic)
  | comparing | choosing | building | binding | driving | leading | pushing =>
      exact fun automatic => grows.holds (ready automatic)
  | claiming | inserting => exact ⟨ready.1, fun automatic => grows.holds (ready.2 automatic)⟩
  | _ => trivial

end Grows

/-! ## Steps that leave the history alone -/

def core (plan : PlanEntry) : String × Option Nat × Model :=
  (plan.id, plan.targetRevision, plan.model)

/-- The revisions stand as they did, the plans differ in their state at most, and
the active revision has not gone back. -/
structure Kept (before after : World ι) : Prop where
  revisions : after.revisions = before.revisions
  head : after.head = before.head
  drawn : before.revisionSeq ≤ after.revisionSeq
  plans : after.plans.map core = before.plans.map core
  active : before.active ≤ after.active

namespace Kept

variable {before after : World ι} (kept : before.Kept after)
include kept

theorem grows : before.Grows after where
  revisions := ⟨[], by simp [kept.revisions], by simp⟩
  plans plan inside := by
    have there : core plan ∈ after.plans.map core := by
      rw [kept.plans]
      exact List.mem_map_of_mem inside
    obtain ⟨other, member, same⟩ := List.mem_map.mp there
    simp only [core, Prod.mk.injEq] at same
    exact ⟨other, member, same.1, same.2.1⟩
  head := Nat.le_of_eq kept.head.symm
  active := kept.active

theorem sound (sound : before.Sound) : after.Sound where
  sorted := by rw [kept.revisions]; exact sound.sorted
  below := by rw [kept.revisions, kept.head]; exact sound.below
  drawn := by rw [kept.head]; exact Nat.le_trans sound.drawn kept.drawn
  distinct := by
    have ids : after.plans.map PlanEntry.id = before.plans.map PlanEntry.id := by
      have projected := congrArg (List.map Prod.fst) kept.plans
      rw [List.map_map, List.map_map] at projected
      exact projected
    rw [ids]
    exact sound.distinct
  models plan inside revision targets := by
    have there : core plan ∈ before.plans.map core := by
      rw [← kept.plans]
      exact List.mem_map_of_mem inside
    obtain ⟨other, member, same⟩ := List.mem_map.mp there
    simp only [core, Prod.mk.injEq] at same
    obtain ⟨-, sameTarget, sameModel⟩ := same
    rw [kept.revisions, kept.head, ← sameModel]
    exact sound.models other member revision (sameTarget.trans targets)

end Kept

theorem map_core_setPlanState (world : World ι) (planId : String)
    (change : Store.PlanState → Store.PlanState) :
    (world.setPlanState planId change).map core = world.plans.map core := by
  rw [setPlanState, List.map_map]
  apply List.map_congr_left
  intro plan _
  simp only [Function.comp_apply]
  split <;> rfl

theorem activeRevision_insert (world : World ι) {entry : OperationEntry}
    (waiting : entry.activated = false) :
    activeRevision (world.insert entry) = activeRevision world.operations := by
  unfold insert
  split
  · rfl
  · simp [activeRevision, newestActivated, List.filter_append, waiting]

/-! ## One step -/

variable [DecidableEq ι]

structure Safe (world : World ι) : Prop where
  sound : world.Sound
  ready : ∀ caller, world.Ready (world.calls caller)

variable {world : World ι}

theorem Safe.stepped {after : World ι} (safe : world.Safe) (caller : ι) (call : Call)
    (grows : world.Grows after) (sound : after.Sound)
    (calls : after.calls = Function.update world.calls caller call)
    (ready : after.Ready call) : after.Safe where
  sound := sound
  ready other := by
    rw [calls]
    by_cases same : other = caller
    · subst same
      rw [Function.update_self]
      exact ready
    · rw [Function.update_of_ne same]
      exact grows.ready safe.sound (safe.ready other)

theorem Safe.kept {after : World ι} (safe : world.Safe) (caller : ι) (call : Call)
    (kept : world.Kept after) (calls : after.calls = Function.update world.calls caller call)
    (ready : world.Ready call) : after.Safe :=
  safe.stepped caller call kept.grows (kept.sound safe.sound) calls
    (kept.grows.ready safe.sound ready)

theorem Safe.become (safe : world.Safe) (caller : ι) {call : Call}
    (ready : world.Ready call) : (world.become caller call).Safe :=
  safe.kept caller call ⟨rfl, rfl, Nat.le_refl _, rfl, Nat.le_refl _⟩ rfl ready

theorem Safe.idle (safe : world.Safe) (caller : ι) :
    (world.become caller .idle).Safe := by
  have ready : world.Ready .idle := trivial
  exact safe.become caller ready

theorem distinct_append {plans : List PlanEntry} (distinct : (plans.map PlanEntry.id).Nodup)
    {plan : PlanEntry} (fresh : planWithId plans plan.id = none) :
    ((plans ++ [plan]).map PlanEntry.id).Nodup := by
  rw [List.map_append, List.map_singleton, List.nodup_append]
  refine ⟨distinct, List.nodup_singleton _, fun id inside other there => ?_⟩
  rw [List.mem_singleton.mp there]
  rintro rfl
  exact planWithId_eq_none.mp fresh inside

theorem Safe.commit (safe : world.Safe) (caller : ι) (answer : Answer)
    (base : Nat) (change : Model → Model) (automatic : Bool) :
    (world.commit caller answer base change automatic).Safe := by
  unfold World.commit
  split
  · exact safe.idle caller
  · next allowed =>
      simp only [not_or, Decidable.not_not, Bool.not_eq_true, Option.isSome_eq_false_iff,
        Option.isNone_iff_eq_none] at allowed
      obtain ⟨-, fresh⟩ := allowed
      let entry : RevisionEntry := ⟨world.revisionSeq + 1, automatic, change⟩
      let plan : PlanEntry :=
        { id := answer.id, state := .committed, targetRevision := some entry.number,
          activationEpoch := some (world.epochSeq + 1),
          model := change (modelOf world.revisions world.head),
          renderDigest := answer.digest }
      have above : world.head < entry.number := Nat.lt_succ_of_le safe.sound.drawn
      have everything : modelOf world.revisions entry.number =
          modelOf world.revisions world.head := by
        rw [modelOf_broughtIn safe.sound.sorted (Nat.le_of_lt above)]
        have nothing : broughtIn world.revisions world.head entry.number = [] := by
          rw [broughtIn, List.filter_eq_nil_iff]
          intro other inside
          simp [safe.sound.below other inside]
        rw [nothing, List.foldl_nil]
      have made : plan.model = modelOf (world.revisions ++ [entry]) entry.number := by
        rw [modelOf, List.filter_append, List.foldl_append, ← modelOf, everything]
        simp [changed, plan, entry]
      refine safe.stepped caller (if automatic then .guarding answer.id else .idle)
        ⟨⟨[entry], rfl, ?_⟩, ?_, Nat.le_of_lt above, Nat.le_refl _⟩
        ⟨?_, ?_, Nat.le_refl _, distinct_append safe.sound.distinct fresh, ?_⟩ rfl ?_
      · intro other inside
        rw [List.mem_singleton.mp inside]
        exact above
      · exact fun old inside => ⟨old, List.mem_append_left _ inside, rfl, rfl⟩
      · refine List.pairwise_append.mpr
          ⟨safe.sound.sorted, List.pairwise_singleton .., fun old inside other there => ?_⟩
        rw [List.mem_singleton.mp there]
        exact Nat.lt_of_le_of_lt (safe.sound.below old inside) above
      · intro other inside
        rcases List.mem_append.mp inside with old | new
        · exact Nat.le_of_lt (Nat.lt_of_le_of_lt (safe.sound.below other old) above)
        · exact Nat.le_of_eq (congrArg RevisionEntry.number (List.mem_singleton.mp new))
      · intro other inside revision targets
        rcases List.mem_append.mp inside with old | new
        · obtain ⟨within, model⟩ := safe.sound.models other old revision targets
          have older : revision < entry.number := Nat.lt_of_le_of_lt within above
          exact ⟨Nat.le_of_lt older, model.trans (modelOf_append _ older).symm⟩
        · rw [List.mem_singleton.mp new] at targets ⊢
          obtain rfl : entry.number = revision := Option.some.inj targets
          exact ⟨Nat.le_refl _, made⟩
      · cases automatic with
        | false => trivial
        | true =>
            exact ⟨plan, List.mem_append_right _ (List.mem_singleton_self _), rfl, entry,
              List.mem_append_right _ (List.mem_singleton_self _), rfl, rfl⟩

theorem Safe.planAgain (safe : world.Safe) (caller : ι) (answer : Answer)
    (revision : Nat) : (world.planAgain caller answer revision).Safe := by
  unfold World.planAgain
  split
  · exact safe.idle caller
  · next allowed =>
      simp only [not_or, Decidable.not_not, Bool.not_eq_true, Option.isSome_eq_false_iff,
        Option.isNone_iff_eq_none] at allowed
      obtain ⟨rfl, fresh⟩ := allowed
      refine safe.stepped caller .idle
        ⟨⟨[], (List.append_nil _).symm, by simp⟩, ?_, Nat.le_refl _, Nat.le_refl _⟩
        ⟨safe.sound.sorted, safe.sound.below, safe.sound.drawn,
          distinct_append safe.sound.distinct fresh, ?_⟩ rfl trivial
      · exact fun old inside => ⟨old, List.mem_append_left _ inside, rfl, rfl⟩
      · intro other inside number targets
        rcases List.mem_append.mp inside with old | new
        · exact safe.sound.models other old number targets
        · rw [List.mem_singleton.mp new] at targets ⊢
          obtain rfl : world.head = number := Option.some.inj targets
          exact ⟨Nat.le_refl _, rfl⟩

/-- If the guard finds no other pending plan, every revision that its plan brings
in is automatic or has been tried. -/
theorem granted_of_guard (sound : world.Sound) {planId : String}
    (ready : world.Ready (.guarding planId))
    (alone : (pendingApplies world.plans world.operations).filter
      (fun plan => plan.id ≠ planId) = [])
    (careful : ∀ entry ∈ world.revisions, world.active < entry.number →
      entry.automatic = false → world.Untried entry.number) :
    world.Granted planId := by
  obtain ⟨plan, inside, named, own, made, automatic, targets⟩ := ready
  refine ⟨plan, inside, named, own.number, targets, fun entry brought => ?_⟩
  obtain ⟨member, range⟩ := List.mem_filter.mp brought
  simp only [Bool.and_eq_true, decide_eq_true_eq] at range
  by_contra byUser
  obtain ⟨⟨other, there, sameTarget, epoch, committed, untouched⟩, newer⟩ :=
    careful entry member range.1 (Bool.eq_false_iff.mpr byUser)
  obtain ⟨stage, reserved⟩ := Option.isSome_iff_exists.mp epoch
  have pending : other ∈ pendingApplies world.plans world.operations := by
    refine List.mem_filter.mpr ⟨there, ?_⟩
    simp [isPending, committed, untouched, sameTarget, reserved, newer]
  have isOwn : other.id = planId := by
    by_contra different
    have left : other ∈ (pendingApplies world.plans world.operations).filter
        (fun plan => plan.id ≠ planId) :=
      List.mem_filter.mpr ⟨pending, by simpa using different⟩
    rw [alone] at left
    cases left
  have same : other = plan :=
    List.inj_on_of_nodup_map sound.distinct there inside (isOwn.trans named.symm)
  have numbers : (world.revisions.map RevisionEntry.number).Nodup := by
    rw [List.Nodup, List.pairwise_map]
    exact sound.sorted.imp fun below => Nat.ne_of_lt below
  have number : entry.number = own.number := by
    rw [same, targets] at sameTarget
    exact (Option.some.inj sameTarget).symm
  rw [List.inj_on_of_nodup_map numbers member made number] at byUser
  exact byUser automatic

theorem holds_of_granted (sound : world.Sound) {planId : String}
    {plan : ReservedPlan} (granted : world.Granted planId)
    (found : (planWithId world.plans planId).bind PlanEntry.reserved = some plan) :
    world.Holds plan := by
  obtain ⟨row, held, taken⟩ := Option.bind_eq_some_iff.mp found
  obtain ⟨member, named⟩ := planWithId_spec held
  obtain ⟨other, inside, sameId, revision, targets, only⟩ := granted
  obtain rfl : other = row :=
    List.inj_on_of_nodup_map sound.distinct inside member (sameId.trans named.symm)
  unfold PlanEntry.reserved at taken
  split at taken
  · cases taken
  · split at taken
    · next reserved epoch =>
        cases taken
        obtain ⟨within, model⟩ := sound.models other member _ reserved
        rw [reserved] at targets
        cases targets
        exact ⟨within, model, only⟩
    · cases taken

theorem Safe.proceed {plant : Plant} (safe : world.Safe) (caller : ι)
    (answer : Answer) (careful : world.Careful (.go caller answer)) :
    (world.proceed plant caller answer).Safe := by
  have ready := safe.ready caller
  unfold World.proceed
  cases stands : world.calls caller with
  | idle => exact safe
  | editing base change automatic => exact safe.commit caller answer base change automatic
  | guarding planId =>
      rw [stands] at ready
      simp only [Careful, stands] at careful
      simp only
      split
      · next alone =>
          exact safe.become caller (fun _ => granted_of_guard safe.sound ready alone careful)
      · exact safe.idle caller
  | looking planId automatic | comparing plan automatic =>
      rw [stands] at ready
      simp only
      split
      · exact safe.idle caller
      · exact safe.become caller ready
  | heading planId automatic =>
      rw [stands] at ready
      simp only
      split
      · exact safe.idle caller
      · next plan found =>
          split
          · exact safe.become caller fun byItself =>
              holds_of_granted safe.sound (ready byItself) found
          · exact safe.idle caller
  | choosing plan slots automatic =>
      rw [stands] at ready
      simp only
      split
      · exact safe.become caller ready
      · exact safe.become caller ready
  | building plan slots automatic =>
      rw [stands] at ready
      simp only [World.build]
      split
      · exact safe.idle caller
      · split
        · exact safe.idle caller
        · exact safe.kept caller _ ⟨rfl, rfl, Nat.le_refl _, rfl, Nat.le_refl _⟩ rfl ⟨rfl, ready⟩
  | claiming plan entry automatic =>
      rw [stands] at ready
      simp only
      split
      · exact safe.idle caller
      · refine safe.kept caller _ ⟨rfl, rfl, Nat.le_refl _, rfl, ?_⟩ rfl ready.2
        exact Nat.le_of_eq (congrArg (·.getD 0) (activeRevision_insert world ready.1).symm)
  | binding plan entry automatic =>
      rw [stands] at ready
      have plans := map_core_setPlanState world plan.id fun state =>
        if state = .committed then .operationBound else state
      exact safe.kept caller (.driving plan entry automatic)
        ⟨rfl, rfl, Nat.le_refl _, plans, Nat.le_refl _⟩ rfl ready
  | driving plan entry automatic =>
      simp only
      split
      · exact safe.kept caller _ ⟨rfl, rfl, Nat.le_refl _, rfl, Nat.le_refl _⟩ rfl trivial
      · exact safe.kept caller _ ⟨rfl, rfl, Nat.le_refl _, rfl, Nat.le_refl _⟩ rfl trivial
  | working plan entry | resuming unfinished =>
      refine safe.kept caller _ ⟨rfl, rfl, Nat.le_refl _, rfl, Nat.le_refl _⟩ rfl ?_
      split <;> trivial
  | leading plan slots live automatic =>
      rw [stands] at ready
      simp only
      split
      · exact safe.idle caller
      · exact safe.kept caller _ ⟨rfl, rfl, Nat.le_refl _, rfl, Nat.le_refl _⟩ rfl ⟨rfl, ready⟩
  | inserting plan entry automatic =>
      rw [stands] at ready
      refine safe.kept caller _ ⟨rfl, rfl, Nat.le_refl _, rfl, ?_⟩ rfl ready.2
      exact Nat.le_of_eq (congrArg (·.getD 0) (activeRevision_insert world ready.1).symm)
  | pushing plan entry automatic | failing | aborting planId id =>
      simp only
      split
      · exact safe.idle caller
      · exact safe.kept caller _ ⟨rfl, rfl, Nat.le_refl _, rfl, Nat.le_refl _⟩ rfl trivial
  | recording planId id phase partialTransition =>
      simp only [Careful, stands] at careful
      refine safe.kept caller _ ⟨rfl, rfl, Nat.le_refl _, rfl, careful⟩ rfl ?_
      split <;> trivial
  | closing planId =>
      have plans := map_core_setPlanState world planId fun _ => .applied
      exact safe.kept caller .idle ⟨rfl, rfl, Nat.le_refl _, plans, Nat.le_refl _⟩ rfl trivial
  | rerendering =>
      simp only
      split
      · exact safe.kept caller _ ⟨rfl, rfl, Nat.le_refl _, rfl, Nat.le_refl _⟩ rfl trivial
      · exact safe.idle caller
  | replanning revision => exact safe.planAgain caller answer revision
  | cancelling id =>
      simp only
      split
      · exact safe.idle caller
      · split
        · exact safe.idle caller
        · exact safe.kept caller _ ⟨rfl, rfl, Nat.le_refl _, rfl, Nat.le_refl _⟩ rfl trivial
  | recovering =>
      exact safe.kept caller _ ⟨rfl, rfl, Nat.le_refl _, rfl, Nat.le_refl _⟩ rfl trivial

theorem Safe.advance {plant : Plant} (safe : world.Safe) (action : Action ι)
    (careful : world.Careful action) : (world.advance plant action).Safe := by
  cases action with
  | start caller task =>
      unfold World.advance
      simp only
      split
      · refine safe.become caller ?_
        cases task with
        | apply planId =>
            intro byItself
            cases byItself
        | _ => trivial
      · exact safe
  | go caller answer => exact safe.proceed caller answer careful
  | crash caller => exact safe.idle caller
  | skip =>
      have kept : world.Kept (world.advance plant .skip) :=
        ⟨rfl, rfl, Nat.le_succ _, rfl, Nat.le_refl _⟩
      exact ⟨kept.sound safe.sound, fun caller => kept.grows.ready safe.sound (safe.ready caller)⟩
  | observe verdicts intake =>
      have kept : world.Kept (world.advance plant (.observe verdicts intake)) :=
        ⟨rfl, rfl, Nat.le_refl _, rfl, Nat.le_refl _⟩
      exact ⟨kept.sound safe.sound, fun caller => kept.grows.ready safe.sound (safe.ready caller)⟩
  | sweep names =>
      have kept : world.Kept (world.advance plant (.sweep names)) :=
        ⟨rfl, rfl, Nat.le_refl _, rfl, Nat.le_refl _⟩
      exact ⟨kept.sound safe.sound, fun caller => kept.grows.ready safe.sound (safe.ready caller)⟩

theorem Safe.carries (safe : world.Safe) {caller : ι} {plan : ReservedPlan}
    (sends : sending (world.calls caller) = some plan) : world.CarriesAutomatic plan := by
  have holds : world.Holds plan := by
    have ready := safe.ready caller
    unfold sending at sends
    split at sends
    · next stands =>
        cases sends
        rw [stands] at ready
        exact ready rfl
    · next stands =>
        cases sends
        rw [stands] at ready
        exact ready rfl
    · cases sends
  obtain ⟨-, model, only⟩ := holds
  refine ⟨only, fun ordered => ?_⟩
  rw [model]
  exact modelOf_broughtIn safe.sound.sorted ordered

instance (world : World ι) (revision : Nat) : Decidable (world.Untried revision) :=
  inferInstanceAs (Decidable ((∃ plan ∈ world.plans, _) ∧ _))

instance (world : World ι) (action : Action ι) : Decidable (world.Careful action) := by
  unfold Careful
  split
  · split <;> infer_instance
  · infer_instance

def opensPort (model : Model) : Model := oneListener 8081 "10.0.0.1" |> fun other =>
  { model with listeners := other.listeners, pools := other.pools, backends := other.backends }

def renews (model : Model) : Model :=
  { model with certificates := [{ key := "site" }] }

def steps {ι : Type} (caller : ι) (number : Nat) (answer : Answer) : List (Action ι) :=
  List.replicate number (.go caller answer)

/-- A user commits and applies a change, and the data plane fails it. -/
def failedApply : List (Action Bool) :=
  [.start false (.commit opensPort false)] ++ steps false 1 { id := "p1" } ++
    [.start false (.apply "p1")] ++ steps false 8 { id := "o1" } ++
    steps false 2 { outcome := some (.failed, false) }

/-- The publisher commits a renewal and applies it by itself, up to the call of
the driver. -/
def publishes : List (Action Bool) :=
  [.start true (.commit renews true)] ++ steps true 1 { id := "p2" } ++
    steps true 8 { id := "o2" }

end World

end Barycenter.Control
