import Barycenter.Secrets.InUse

/-!
# Runs with sweeps

A sweep that is under way misses nothing that is in use: the sources it has passed
speak only for what it keeps or what will be young when it judges, and what it has
chosen nobody speaks for.  Every step keeps it so, as long as the run is careful.
-/

namespace Barycenter.Secrets

structure World.Guarded (policy : Policy) (slack : Nat) (world : World) : Prop where
  begun : ∀ sweep phase, world.sweeps.get? sweep = some phase →
    ∀ startedAt ∈ phase.startedAt, startedAt ≤ world.now
  spares : ∀ sweep phase, world.sweeps.get? sweep = some phase →
    ∀ source ref, world.Uses policy source ref →
      ¬ world.missedBy policy slack source phase ref

section

variable {backend : Backend} {policy : Policy} {slack : Nat} {world after : World}
  {source : Option Source} {phase : Sweep} {ref : Ref} {sweep : Nat}

theorem guarded_idle (idle : world.sweeps = .empty) : world.Guarded policy slack :=
  ⟨fun sweep phase found => by simp [idle] at found,
    fun sweep phase found => by simp [idle] at found⟩

@[simp] theorem missed_deleting {doomed : List Ref} :
    world.missedBy policy slack source (.deleting doomed) ref ↔ ref ∈ doomed := by
  simp [World.missedBy, Sweep.startedAt, Sweep.keeps]

theorem missed_before (slackFits : slack < policy.minAgeMs)
    (begun : ∀ startedAt ∈ phase.startedAt, startedAt ≤ world.now)
    (births : ∀ birth, after.stored.get? ref = some birth →
      world.stored.get? ref = some birth ∨ world.now ≤ birth)
    (missed : after.missedBy policy slack source phase ref) :
    world.missedBy policy slack source phase ref := by
  rw [World.missedBy] at missed ⊢
  cases started : phase.startedAt with
  | none => simpa [started] using missed
  | some startedAt =>
      rw [started] at missed
      obtain ⟨read, unkept, birth, found, old⟩ := missed
      refine ⟨read, unkept, birth, ?_, old⟩
      rcases births birth found with same | late
      · exact same
      · have early := begun startedAt started
        omega

variable {action : Action}

theorem guarded_of_use (slackFits : slack < policy.minAgeMs)
    (used : world.use action = some after) (guarded : world.Guarded policy slack)
    (careful : ∀ ref ∈ world.takes action, ∀ entry ∈ world.sweeps.entries,
      ¬ world.missedBy policy slack action.source entry.2 ref) : after.Guarded policy slack := by
  have beside := use_spec policy used
  constructor
  · intro sweep phase found startedAt started
    rw [beside.sweeps] at found
    exact Nat.le_trans (guarded.begun sweep phase found startedAt started) beside.clock
  · intro sweep phase found source ref uses missed
    rw [beside.sweeps] at found
    have earlier := missed_before slackFits (guarded.begun sweep phase found)
      (beside.births ref) missed
    rcases beside.uses source ref uses with before | ⟨rfl, taken⟩
    · exact guarded.spares sweep phase found source ref before earlier
    · exact careful ref taken (sweep, phase) (OrderedMap.mem_entries_iff.mpr found) earlier

/-- A sweep moves on, or another version goes: what the others spare they still
spare. -/
theorem guarded_of_sweep (slackFits : slack < policy.minAgeMs)
    (guarded : world.Guarded policy slack)
    (clock : after.now = world.now)
    (uses : ∀ source ref, after.Uses policy source ref → world.Uses policy source ref)
    (births : ∀ ref birth, after.stored.get? ref = some birth →
      world.stored.get? ref = some birth)
    (phases : ∀ other phase, after.sweeps.get? other = some phase →
      world.sweeps.get? other = some phase ∨
        (∀ startedAt ∈ phase.startedAt, startedAt ≤ world.now) ∧
          ∀ source ref, world.Uses policy source ref →
            ¬ world.missedBy policy slack source phase ref) :
    after.Guarded policy slack := by
  have known : ∀ other phase, after.sweeps.get? other = some phase →
      (∀ startedAt ∈ phase.startedAt, startedAt ≤ world.now) ∧
        ∀ source ref, world.Uses policy source ref →
          ¬ world.missedBy policy slack source phase ref := by
    intro other phase found
    rcases phases other phase found with same | known
    · exact ⟨guarded.begun other phase same, guarded.spares other phase same⟩
    · exact known
  constructor
  · intro other phase found startedAt started
    rw [clock]
    exact (known other phase found).1 startedAt started
  · intro other phase found source ref used missed
    have earlier := missed_before slackFits (known other phase found).1
      (fun birth stored => .inl (births ref birth stored)) missed
    exact (known other phase found).2 source ref (uses source ref used) earlier

/-! ## What a sweep sees -/

theorem gather_keeps (gathered : Gathered) {source : Source} (used : ref ∈ world.usedBy source) :
    ref ∈ (world.gather gathered source).refs ∨
      ref.version ∈ (world.gather gathered source).versions := by
  cases source with
  | revisions | accounts => exact .inl (List.mem_append_right _ used)
  | generations => exact .inr (List.mem_append_right _ (List.mem_map_of_mem used))
  | orders =>
      obtain ⟨id, order, found, live, member⟩ := mem_usedBy_orders.mp used
      refine .inl (List.mem_append_right _ (List.mem_flatMap.mpr ⟨order, ?_, member⟩))
      exact List.mem_filter.mpr
        ⟨OrderedMap.mem_values_iff.mpr ⟨id, found⟩, by simp [live]⟩

theorem gather_mono (gathered : Gathered) (source : Source)
    (kept : ref ∈ gathered.refs ∨ ref.version ∈ gathered.versions) :
    ref ∈ (world.gather gathered source).refs ∨
      ref.version ∈ (world.gather gathered source).versions := by
  cases source <;> simp only [World.gather, List.mem_append] <;> tauto

theorem reading_keeps (startedAt : Nat) (gathered : Gathered) (left : List Source) :
    (Sweep.reading startedAt gathered left).keeps ref = true ↔
      ref ∈ gathered.refs ∨ ref.version ∈ gathered.versions := by
  simp [Sweep.keeps]

variable {startedAt : Nat}

theorem spares_after_reading {gathered : Gathered} {read : Source} {left : List Source}
    (spared : ∀ source ref, world.Uses policy source ref →
      ¬ world.missedBy policy slack source (.reading startedAt gathered (read :: left)) ref) :
    ∀ source ref, world.Uses policy source ref →
      ¬ world.missedBy policy slack source
        (.reading startedAt (world.gather gathered read) left) ref := by
  rintro source ref used ⟨known, unkept, birth, found, old⟩
  have notGathered : ¬ (ref ∈ (world.gather gathered read).refs ∨
      ref.version ∈ (world.gather gathered read).versions) := by
    rw [← reading_keeps startedAt _ left, unkept]
    exact Bool.false_ne_true
  cases source with
  | none => cases known
  | some source =>
      by_cases now : source = read
      · subst now
        exact notGathered (gather_keeps gathered used)
      · refine spared (some source) ref used ⟨?_, ?_, birth, found, old⟩
        · simpa [Sweep.hasRead, now] using known
        · rw [← Bool.not_eq_true, reading_keeps]
          exact fun kept => notGathered (gather_mono gathered read kept)

theorem spares_after_listing {gathered : Gathered}
    (spared : ∀ source ref, world.Uses policy source ref →
      ¬ world.missedBy policy slack source (.reading startedAt gathered []) ref) :
    ∀ source ref, world.Uses policy source ref →
      ¬ world.missedBy policy slack source
        (.judging startedAt (World.expandVersionRoots gathered world.stored.keys)) ref := by
  rintro source ref used ⟨known, unkept, birth, found, old⟩
  have notRoot : ref ∉ World.expandVersionRoots gathered world.stored.keys := by
    simpa [Sweep.keeps] using unkept
  rw [World.expandVersionRoots, List.mem_append, List.mem_filter, not_or] at notRoot
  have stored : ref ∈ world.stored.keys := OrderedMap.mem_keys_iff.mpr ⟨birth, found⟩
  refine spared source ref used ⟨?_, ?_, birth, found, old⟩
  · cases source <;> simp_all [Sweep.hasRead]
  · rw [← Bool.not_eq_true, reading_keeps]
    rintro (gatheredRef | version)
    · exact notRoot.1 gatheredRef
    · exact notRoot.2 ⟨stored, by simpa using version⟩

theorem doomed_not_in_use {roots : List Ref} (guarded : world.Guarded policy slack)
    (found : world.sweeps.get? sweep = some (.judging startedAt roots))
    (judges : world.JudgesSafely policy slack sweep) (chosen : ref ∈ world.doomed policy roots) :
    ¬ world.InUse policy ref := by
  rw [World.JudgesSafely, found] at judges
  obtain ⟨soon, held⟩ := judges
  obtain ⟨entry, removed, rfl⟩ := List.mem_map.mp chosen
  obtain ⟨listed, notRoot, old⟩ := removed_spec removed
  have stored : world.stored.get? entry.ref = some entry.mtime := by
    obtain ⟨pair, member, same⟩ := List.mem_map.mp listed
    subst same
    exact OrderedMap.mem_entries_iff.mp member
  have notUsed : ∀ source : Source, entry.ref ∉ world.usedBy source := by
    intro source used
    refine guarded.spares sweep _ found (some source) entry.ref used
      ⟨rfl, by simpa [Sweep.keeps] using notRoot, entry.mtime, stored, ?_⟩
    exact Nat.le_trans old soon
  rintro ⟨source, used⟩
  cases source with
  | some source => exact notUsed source used
  | none =>
      obtain ⟨source, -, speaks⟩ := held entry listed old used
      exact notUsed source speaks

/-! ## Steps of a sweep -/

theorem guarded_of_phase (sweep : Nat) (phase : Sweep) (slackFits : slack < policy.minAgeMs)
    (guarded : world.Guarded policy slack)
    (begun : ∀ startedAt ∈ phase.startedAt, startedAt ≤ world.now)
    (spared : ∀ source ref, world.Uses policy source ref →
      ¬ world.missedBy policy slack source phase ref) :
    (world.withSweep sweep phase).Guarded policy slack := by
  refine guarded_of_sweep slackFits guarded rfl (fun _ _ used => used) (fun _ _ same => same)
    fun other found stored => ?_
  simp only [World.withSweep, OrderedMap.get?_set] at stored
  split at stored
  · cases stored
    exact .inr ⟨begun, spared⟩
  · exact .inl stored

theorem guarded_of_end {stored : OrderedMap Ref Nat} (slackFits : slack < policy.minAgeMs)
    (guarded : world.Guarded policy slack)
    (gone : ∀ ref birth, stored.get? ref = some birth → world.stored.get? ref = some birth) :
    (World.endSweep { world with stored := stored } sweep).Guarded policy slack := by
  refine guarded_of_sweep slackFits guarded rfl (fun source _ used => ?_) gone
    fun other found there => .inl ?_
  · cases source <;> exact used
  · simp only [World.endSweep, OrderedMap.get?_erase] at there
    split at there
    · cases there
    · exact there

theorem guarded_of_sweepStep (slackFits : slack < policy.minAgeMs)
    (stepped : world.sweepStep backend policy action = some after)
    (guarded : world.Guarded policy slack) (careful : Careful policy slack ⟨world, action, after⟩) :
    after.Guarded policy slack := by
  cases action with simp only [World.sweepStep] at stepped
  | beginSweep sweep =>
      split at stepped
      · cases stepped
      · cases stepped
        refine guarded_of_phase sweep _ slackFits guarded (fun startedAt started => ?_)
          fun source ref used missed => ?_
        · exact Nat.le_of_eq (Option.some.inj started).symm
        · obtain ⟨known, -⟩ := missed
          cases source with
          | none => cases known
          | some source => cases source <;> simp [Sweep.hasRead, Source.all] at known
  | readSource sweep =>
      split at stepped
      · rename_i startedAt gathered source left found
        cases stepped
        exact guarded_of_phase sweep _ slackFits guarded
          (fun _ started => guarded.begun sweep _ found _ started)
          (spares_after_reading (guarded.spares sweep _ found))
      · cases stepped
  | listRefs sweep =>
      split at stepped
      · rename_i startedAt gathered found
        cases stepped
        exact guarded_of_phase sweep _ slackFits guarded
          (fun _ started => guarded.begun sweep _ found _ started)
          (spares_after_listing (guarded.spares sweep _ found))
      · cases stepped
  | judge sweep =>
      have judges := careful.2
      split at stepped
      · rename_i startedAt roots found
        cases stepped
        refine guarded_of_end slackFits guarded fun ref birth stored => ?_
        rw [OrderedMap.get?_without] at stored
        split at stored
        · cases stored
        · exact stored
      · rename_i startedAt roots found
        cases stepped
        refine guarded_of_phase sweep _ slackFits guarded (fun _ started => nomatch started)
          fun source ref used missed => ?_
        exact doomed_not_in_use guarded found judges (missed_deleting.mp missed) ⟨source, used⟩
      · cases stepped
  | deleteNext sweep =>
      split at stepped
      · rename_i gone rest found
        cases stepped
        have shrunk := guarded_of_phase sweep (.deleting rest) slackFits guarded
          (fun _ started => nomatch started) fun source ref used missed =>
            guarded.spares sweep _ found source ref used
              (missed_deleting.mpr (List.mem_cons_of_mem _ (missed_deleting.mp missed)))
        refine guarded_of_sweep slackFits shrunk rfl (fun source _ used => ?_)
          (fun ref birth stored => ?_) fun other phase there => .inl there
        · cases source <;> exact used
        · have there : (world.stored.erase gone).get? ref = some birth := stored
          rw [OrderedMap.get?_erase] at there
          split at there
          · cases there
          · exact there
      · cases stepped
        exact guarded_of_end slackFits guarded fun _ _ same => same
      · cases stepped
  | tick _ | put _ | createChangeset _ | patchChangeset _ _ | plan _ | reopen _ | discard _
  | commit _ | rollback _ | build _ _ | removeGeneration _ | register _ | openOrder _ _
  | setCertKeyRef _ _ | markIssued _ _ _ | advance _ _ => cases stepped

theorem guarded_of_step (slackFits : slack < policy.minAgeMs)
    (stepped : Steps backend policy world action after) (guarded : world.Guarded policy slack)
    (careful : Careful policy slack ⟨world, action, after⟩) : after.Guarded policy slack := by
  rw [Steps, act, Option.or_eq_some_iff] at stepped
  rcases stepped with used | ⟨-, swept⟩
  · exact guarded_of_use slackFits used guarded careful.1
  · exact guarded_of_sweepStep slackFits swept guarded careful

theorem deleted_not_in_use (guarded : world.Guarded policy slack)
    (careful : Careful policy slack ⟨world, action, after⟩)
    (deleted : ref ∈ world.deleted backend policy action) : ¬ world.InUse policy ref := by
  cases action with
  | judge sweep =>
      simp only [World.deleted] at deleted
      split at deleted
      · rename_i startedAt roots found
        exact doomed_not_in_use guarded found careful.2 deleted
      · cases deleted
  | deleteNext sweep =>
      simp only [World.deleted] at deleted
      split at deleted
      · rename_i chosen rest found
        obtain rfl := List.mem_singleton.mp deleted
        rintro ⟨source, used⟩
        exact guarded.spares sweep _ found source _ used (missed_deleting.mpr List.mem_cons_self)
      · cases deleted
  | _ => cases deleted

end

/-- In a careful run no sweep deletes a version that is in use at that moment. -/
theorem sweeps_spare_what_is_in_use {backend : Backend} {policy : Policy} {slack : Nat}
    {start final : World} {history : List (Event World Action)}
    (slackFits : slack < policy.minAgeMs) (idle : start.sweeps = .empty)
    (run : Follows (Steps backend policy) start history final)
    (careful : ∀ event ∈ history, Careful policy slack event) :
    ∀ event ∈ history, ∀ ref ∈ event.before.deleted backend policy event.label,
      ¬ event.before.InUse policy ref := by
  have guarded := run.throughout (World.Guarded policy slack) (guarded_idle idle)
    fun event member stepped before => guarded_of_step slackFits stepped before (careful event member)
  intro event member ref deleted
  exact deleted_not_in_use (guarded event member) (careful event member) deleted

/-! ## Runs that end a version -/

instance (policy : Policy) (world : World) (ref : Ref) :
    Decidable (world.returnedLately policy ref) := by
  unfold World.returnedLately
  infer_instance

instance (policy : Policy) (world : World) (source : Option Source) (ref : Ref) :
    Decidable (world.Uses policy source ref) := by
  unfold World.Uses
  split <;> infer_instance

instance (world : World) (ref : Ref) : Decidable (world.held ref) := by
  unfold World.held
  infer_instance

instance (policy : Policy) (slack : Nat) (world : World) (source : Option Source)
    (sweep : Sweep) (ref : Ref) : Decidable (world.missedBy policy slack source sweep ref) := by
  unfold World.missedBy
  split <;> infer_instance

instance (policy : Policy) (slack : Nat) (world : World) (sweep : Nat) :
    Decidable (world.JudgesSafely policy slack sweep) := by
  unfold World.JudgesSafely
  split <;> infer_instance

instance (policy : Policy) (slack : Nat) (event : Event World Action) :
    Decidable (Careful policy slack event) := by
  unfold Careful
  refine @instDecidableAnd _ _ inferInstance ?_
  split <;> infer_instance

/-- The versions of one certificate, in the order in which they came. -/
def version (number : Nat) : Ref :=
  { scheme := .store, name := "web", version := toString number }

def threeVersions : List Action :=
  [.put (version 1), .tick 1000, .put (version 2), .tick 1000, .put (version 3), .tick 7200000]

def sweepTo : List Action :=
  [.beginSweep 0, .readSource 0, .readSource 0, .readSource 0, .readSource 0, .listRefs 0, .judge 0]

theorem sweep_spares_in_careful_run :
    ∃ history final, Follows (Steps .pg {}) {} history final ∧
      history.map Event.label = threeVersions ++ sweepTo ++ [.deleteNext 0] ∧
      (∃ event ∈ history, event.before.deleted .pg {} event.label = [version 1]) ∧
      ∀ event ∈ history, ∀ ref ∈ event.before.deleted .pg {} event.label,
        ¬ event.before.InUse {} ref := by
  obtain ⟨history, final, run, labels, holds⟩ := @follows_of_attempt _ _ (act .pg {}) {}
    (threeVersions ++ sweepTo ++ [.deleteNext 0])
    (fun (history, _) => decide ((∀ event ∈ history, Careful {} 1000 event) ∧
      ∃ event ∈ history, event.before.deleted .pg {} event.label = [version 1]))
    (by decide +kernel)
  obtain ⟨careful, deletes⟩ := of_decide_eq_true holds
  exact ⟨history, final, run, labels, deletes,
    sweeps_spare_what_is_in_use (by decide) rfl run careful⟩

/-- Bytes that are put again keep the time at which they first came, so that the
version is deleted at the very moment at which the put returned it. -/
theorem version_deleted_after_put :
    ∃ history final, Follows (Steps .fs {}) {} history final ∧
      history.map Event.label = threeVersions ++ [.put (version 1)] ++ sweepTo ∧
      ∃ event ∈ history, event.before.deleted .fs {} event.label = [version 1] ∧
        event.before.InUse {} (version 1) := by
  obtain ⟨history, final, run, labels, holds⟩ := @follows_of_attempt _ _ (act .fs {}) {}
    (threeVersions ++ [.put (version 1)] ++ sweepTo)
    (fun (history, _) => decide (∃ event ∈ history,
      event.before.deleted .fs {} event.label = [version 1] ∧
        event.before.Uses {} none (version 1)))
    (by decide +kernel)
  obtain ⟨event, member, deletes, used⟩ := of_decide_eq_true holds
  exact ⟨history, final, run, labels, event, member, deletes, none, used⟩

end Barycenter.Secrets
