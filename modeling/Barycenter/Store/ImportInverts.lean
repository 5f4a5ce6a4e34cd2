import Barycenter.Model.Decode
import Barycenter.Store.Manifest

/-!
# When an import inverts an export

Importing the manifest of one model into a store that holds another ends in the
exported model exactly when the exported resources refer to each other only,
the ones that are put are kept by their columns, and no pool changes its class
and no listener its protocol while something in the store still refers to it.
The order of the operations never gets in the way: what is referred to is put
first and deleted last.
-/

namespace Barycenter

namespace Store

open Config

section Inverts

variable (collation : Collation) (tables : Tables) (model : Model)

/-- The operations that import the manifest of a model, replacing the rest. -/
def replacement : List PatchOp :=
  importPatch (readModel collation tables) (exportManifest model) .replace

structure ImportInverts : Prop where
  /-- The store ends in the exported model. -/
  converges : ∃ after, applyOps tables (replacement collation tables model) = .ok after ∧
    SameUpToOrder (readModel collation after) model
  /-- All references resolve before and after every operation. -/
  resolved : ∀ done rest middle, replacement collation tables model = done ++ rest →
    applyOps tables done = .ok middle → resources.Closed (shown middle)
  /-- Importing its own resources in any order asks for nothing. -/
  quiet : ∀ manifest mode, manifest.resources.Perm (exportManifest model).resources →
    importPatch model manifest mode = []

/-- What an import asks of the current model and of the exported one. -/
structure Importable (current model : Model) : Prop where
  distinct : DistinctKeys model
  setsFilled : model.addressSets ≠ some []
  standing : ∀ item ∈ modelResources model,
    resources.Stands (resources.among (modelResources model)) item
  fitting : ∀ item ∈ modelResources model, item ∉ modelResources current → ColumnsFit item
  /-- No class and no protocol changes that current resources hold. -/
  movable : ∀ item ∈ modelResources model,
    resources.Movable (resources.among (modelResources current)) item

variable {collation tables model}

theorem replacement_converges_iff (sound : tablesKeeper.Sound tables) :
    (∃ after, applyOps tables (replacement collation tables model) = .ok after ∧
        SameUpToOrder (readModel collation after) model) ↔
      Importable (readModel collation tables) model := by
  have kept : RowsKept tables := sound.valid
  have shows := @among_read collation tables kept
  have doomed : Keeper.Doomed resources (tablesKeeper.view tables) (modelResources model)
      (doomedNames (readModel collation tables) (exportManifest model)) := by
    have spec := doomedNames_spec (@read_distinct collation tables) (exportManifest model)
    rw [shows] at spec
    exact spec
  have different (item : Resource) :
      tablesKeeper.view tables (resources.name item) ≠ some item ↔
        item ∉ modelResources (readModel collation tables) :=
    not_congr (mem_read kept).symm
  have brought (distinct : DistinctKeys model) :=
    @Keeper.bring_iff _ _ _ _ _ _ _ tablesKeeper _ _ _ _ sound distinct
      (modelResources_ordered model) doomed
  have run : applyOps tables (replacement collation tables model) =
      tablesKeeper.bring tables (modelResources model)
        (doomedNames (readModel collation tables) (exportManifest model)) :=
    applyOps_importPatch kept
  constructor
  · rintro ⟨after, done, same⟩
    have afterSound := applyOps_sound sound done
    obtain ⟨distinct, filled, final⟩ := (holds_iff afterSound.valid).mp same
    rw [run] at done
    obtain ⟨standing, changed⟩ := (brought distinct).mp ⟨after, done, final⟩
    refine ⟨distinct, filled, standing, ?_, ?_⟩
    · intro item member missing
      exact (changed item member ((different item).mpr missing)).1
    · intro item member
      rw [shows]
      by_cases inside : item ∈ modelResources (readModel collation tables)
      · intro old found
        have present := (mem_read kept).mp inside
        exact .inl (congrArg resourceTrait (Option.some.inj (found.symm.trans present)))
      · exact (changed item member ((different item).mpr inside)).2
  · intro importable
    have movable := importable.movable
    rw [shows] at movable
    obtain ⟨after, done, final⟩ := (brought importable.distinct).mpr
      ⟨importable.standing, fun item member missing =>
        ⟨importable.fitting item member ((different item).mp missing), movable item member⟩⟩
    rw [← run] at done
    refine ⟨after, done, ?_⟩
    exact (holds_iff (applyOps_sound sound done).valid).mpr
      ⟨importable.distinct, importable.setsFilled, final⟩

/-- For a store that operations have made from empty tables, and any model. -/
theorem import_inverts_export_iff {ops : List PatchOp}
    (reachable : applyOps {} ops = .ok tables) :
    ImportInverts collation tables model ↔ Importable (readModel collation tables) model := by
  have sound := applyOps_sound sound_empty reachable
  constructor
  · intro inverts
    exact (replacement_converges_iff sound).mp inverts.converges
  · intro importable
    refine ⟨(replacement_converges_iff sound).mpr importable, ?_, ?_⟩
    · intro done rest middle _ applied
      exact (applyOps_sound sound applied).closed
    · intro manifest mode listed
      exact importPatch_own importable.distinct listed mode

end Inverts

/-- One pool and one backend, without a bound on its connections. -/
def unlimited : Model :=
  { pools := [{ key := "app", protocolClass := .http, algorithm := .roundRobin }]
    backends :=
      [{ key := "a1", pool := "app", host := "10.0.0.1", port := 8080, weight := 1 }] }

/-- Into an empty store. -/
theorem import_inverts_export_unlimited : ImportInverts characterOrder {} unlimited := by
  apply (@import_inverts_export_iff characterOrder {} unlimited [] rfl).mpr
  have two : modelResources unlimited =
      (unlimited.pools.map Resource.pool) ++ (unlimited.backends.map Resource.backend) := by
    decide
  refine ⟨by unfold DistinctKeys; decide, by decide, ?_, ?_, ?_⟩
  · rw [two]
    intro item member
    simp only [unlimited, List.map_cons, List.map_nil, List.cons_append, List.nil_append,
      List.mem_cons, List.not_mem_nil, or_false] at member
    rcases member with rfl | rfl
    · exact fun _ inside => nomatch inside
    · intro ref inside
      obtain rfl := List.mem_singleton.mp inside
      exact ⟨.pool { key := "app", protocolClass := .http, algorithm := .roundRobin },
        by decide, fun _ pinned => nomatch pinned⟩
  · rw [two]
    intro item member _
    simp only [unlimited, List.map_cons, List.map_nil, List.cons_append, List.nil_append,
      List.mem_cons, List.not_mem_nil, or_false] at member
    rcases member with rfl | rfl
    · unfold ColumnsFit PoolFits
      decide
    · unfold ColumnsFit BackendColumnsFit
      decide
  · have nothing : modelResources (readModel characterOrder {}) = [] := by decide +kernel
    intro item _ old found
    rw [nothing] at found
    cases found

/-! ## A manifest that never stops to differ -/

def limited : Model :=
  { unlimited with
    backends :=
      [{ key := "a1"
         pool := "app"
         host := "10.0.0.1"
         port := 8080
         weight := 1
         softMaxConns := some 100 }] }

/-- The tables that hold a model after its own operations. -/
def tablesOf (model : Model) : Tables :=
  match applyOps {} (opsOf model) with
  | .ok tables => tables
  | .error _ => {}

/-- Both models are valid, the import of the bound succeeds and loses it, and
importing the manifest again asks for the same put for ever. -/
theorem limited_never_imported :
    Validate.validateModel Validate.plainRuntime ⟨true, none, none⟩ unlimited = [] ∧
      Validate.validateModel Validate.plainRuntime ⟨true, none, none⟩ limited = [] ∧
      Validate.decodeModel Validate.plainRuntime limited = [] ∧
      applyOps {} (opsOf unlimited) = .ok (tablesOf unlimited) ∧
      readModel characterOrder (tablesOf unlimited) = unlimited ∧
      applyOps (tablesOf unlimited) (replacement characterOrder (tablesOf unlimited) limited) =
        .ok (tablesOf unlimited) ∧
      replacement characterOrder (tablesOf unlimited) limited ≠ [] ∧
      ¬ ImportInverts characterOrder (tablesOf unlimited) limited := by
  have done : applyOps (tablesOf unlimited)
      (replacement characterOrder (tablesOf unlimited) limited) = .ok (tablesOf unlimited) := by
    decide +kernel
  refine ⟨by decide +kernel, by decide +kernel, by decide +kernel, by decide +kernel,
    by decide +kernel, done, by decide +kernel, ?_⟩
  intro inverts
  obtain ⟨after, again, same⟩ := inverts.converges
  obtain rfl : tablesOf unlimited = after := Except.ok.inj (done.symm.trans again)
  exact absurd same.backends (by decide +kernel)

end Store

end Barycenter
