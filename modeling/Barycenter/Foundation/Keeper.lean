import Barycenter.Foundation.Registry

/-!
# Stores that keep a registry

A keeper is a store whose states show the items of a registry.  It puts an item
only where the references of the item resolve and no pinned trait changes, and
it may store the item in a form of its own; it deletes a name that nothing
restricts, together with what follows it.

Bringing a keeper to a wanted list of items succeeds exactly when the wanted
items refer to each other only, the ones that are put are stored as they are,
and none of them changes a trait that the current items pin.
-/

namespace Barycenter

structure Keeper {κ ρ γ : Type} [DecidableEq κ] (registry : Registry κ ρ γ) (σ ε : Type) where
  view : σ → κ → Option ρ
  Valid : σ → Prop
  /-- The store keeps the item as it is. -/
  Fits : ρ → Prop
  put : σ → ρ → Except ε σ
  delete : σ → κ → Except ε σ
  put_spec : ∀ state item after, Valid state → put state item = .ok after →
    Valid after ∧ registry.Stands (view state) item ∧ registry.Movable (view state) item ∧
      ∃ stored, registry.Alike item stored ∧
        view after = registry.placed (view state) stored ∧ (stored = item → Fits item)
  put_fits : ∀ state item, Valid state → Fits item →
    registry.Stands (view state) item → registry.Movable (view state) item →
      ∃ after, put state item = .ok after ∧ view after (registry.name item) = some item
  delete_spec : ∀ state key after, Valid state → delete state key = .ok after →
    Valid after ∧ ¬ registry.Restricted (view state) key ∧
      view after = registry.removed (view state) key
  delete_free : ∀ state key, Valid state → (view state key).isSome →
    ¬ registry.Restricted (view state) key → ∃ after, delete state key = .ok after

namespace Keeper

variable {κ ρ γ σ ε : Type} [DecidableEq κ]
variable {registry : Registry κ ρ γ} (keeper : Keeper registry σ ε)

/-- The items of a wanted list that a view does not show. -/
def changed [DecidableEq ρ] (registry : Registry κ ρ γ) (start : κ → Option ρ) (wanted : List ρ) : List ρ :=
  wanted.filter fun item => decide (start (registry.name item) ≠ some item)

/-- Put what is changed, then delete what is not wanted. -/
def bring [DecidableEq ρ] (state : σ) (wanted : List ρ) (doomed : List κ) : Except ε σ := do
  let state ← (changed registry (keeper.view state) wanted).foldlM keeper.put state
  doomed.foldlM keeper.delete state

variable {keeper}

/-! ## One operation -/

structure Sound (keeper : Keeper registry σ ε) (state : σ) : Prop where
  valid : keeper.Valid state
  closed : registry.Closed (keeper.view state)

variable {state after : σ} {item : ρ}

theorem Sound.put (sound : keeper.Sound state) (done : keeper.put state item = .ok after) :
    keeper.Sound after := by
  obtain ⟨valid, stands, movable, stored, alike, shown, _⟩ :=
    keeper.put_spec state item after sound.valid done
  refine ⟨valid, ?_⟩
  rw [shown]
  exact sound.closed.placed (alike.stands stands) (alike.movable movable)

theorem Sound.delete {key : κ} (sound : keeper.Sound state)
    (done : keeper.delete state key = .ok after) : keeper.Sound after := by
  obtain ⟨valid, free, shown⟩ := keeper.delete_spec state key after sound.valid done
  refine ⟨valid, ?_⟩
  rw [shown]
  exact sound.closed.removed free

variable {state : σ}

theorem Sound.put_placed (sound : keeper.Sound state) (fits : keeper.Fits item)
    (stands : registry.Stands (keeper.view state) item)
    (movable : registry.Movable (keeper.view state) item) :
    ∃ after, keeper.put state item = .ok after ∧ keeper.Sound after ∧
      keeper.view after = registry.placed (keeper.view state) item := by
  obtain ⟨after, done, kept⟩ := keeper.put_fits state item sound.valid fits stands movable
  obtain ⟨_, _, _, stored, alike, shown, _⟩ :=
    keeper.put_spec state item after sound.valid done
  have same : item = stored := by
    rw [shown, alike.name, Registry.placed_self] at kept
    exact (Option.some.inj kept).symm
  exact ⟨after, done, sound.put done, same ▸ shown⟩

/-! ## Putting what is changed -/

section Puts

variable {start : κ → Option ρ}

def overlay (registry : Registry κ ρ γ) (start : κ → Option ρ) (wanted : List ρ) :
    κ → Option ρ := fun key =>
  (registry.among wanted key).or (start key)

theorem overlay_snoc {done : List ρ} (fresh : registry.name item ∉ done.map registry.name) :
    overlay registry start (done ++ [item]) =
      registry.placed (overlay registry start done) item := by
  funext key
  by_cases here : key = registry.name item
  · subst here
    have missing : registry.among done (registry.name item) = none :=
      Registry.among_eq_none.mpr fresh
    unfold Registry.among at missing
    simp [overlay, Registry.among, Registry.placed, missing]
  · have other : registry.name item ≠ key := Ne.symm here
    simp [overlay, Registry.among, Registry.placed, here, other]

theorem overlay_snoc_same {done : List ρ} (fresh : registry.name item ∉ done.map registry.name)
    (same : start (registry.name item) = some item) :
    overlay registry start (done ++ [item]) = overlay registry start done := by
  rw [overlay_snoc fresh]
  apply Function.update_eq_self_iff.mpr
  simp [overlay, Registry.among_eq_none.mpr fresh, same]

variable [DecidableEq ρ]

theorem puts_of_fits {wanted done rest : List ρ} (split : done ++ rest = wanted)
    (distinct : (wanted.map registry.name).Nodup) (ordered : wanted.Pairwise fun left right =>
      registry.rank (registry.name left) ≤ registry.rank (registry.name right))
    (standing : ∀ item ∈ wanted, registry.Stands (registry.among wanted) item)
    (fitting : ∀ item ∈ wanted, start (registry.name item) ≠ some item →
      keeper.Fits item ∧ registry.Movable start item) (startClosed : registry.Closed start)
    (sound : keeper.Sound state) (shown : keeper.view state = overlay registry start done) :
    ∃ after, (changed registry start rest).foldlM keeper.put state = .ok after ∧
      keeper.Sound after ∧ keeper.view after = overlay registry start wanted := by
  induction rest generalizing done state with
  | nil =>
      rw [List.append_nil] at split
      exact ⟨state, rfl, sound, split ▸ shown⟩
  | cons item rest induction =>
      have split' : (done ++ [item]) ++ rest = wanted := by simpa using split
      have member : item ∈ wanted := split ▸ by simp
      have fresh : registry.name item ∉ done.map registry.name := by
        rw [← split, List.map_append, List.map_cons] at distinct
        intro inside
        exact List.disjoint_of_nodup_append distinct inside List.mem_cons_self
      have lower : ∀ other ∈ wanted,
          registry.rank (registry.name other) < registry.rank (registry.name item) →
            other ∈ done := by
        intro other inside below
        rw [← split] at inside ordered
        rcases List.mem_append.mp inside with early | late
        · exact early
        · rcases List.mem_cons.mp late with rfl | later
          · exact absurd below (Nat.lt_irrefl _)
          · have above := (List.pairwise_cons.mp (List.pairwise_append.mp ordered).2.1).1
              other later
            exact absurd below (Nat.not_lt.mpr above)
      by_cases same : start (registry.name item) = some item
      · have skipped : changed registry start (item :: rest) = changed registry start rest := by
          simp [changed, same]
        rw [skipped]
        exact induction split' sound (shown.trans (overlay_snoc_same fresh same).symm)
      · have taken : changed registry start (item :: rest) =
            item :: changed registry start rest := by
          simp [changed, same]
        obtain ⟨fits, movable⟩ := fitting item member same
        have stands : registry.Stands (keeper.view state) item := by
          intro ref inside
          obtain ⟨target, found, suited⟩ := standing item member ref inside
          obtain ⟨targetWanted, named⟩ := (Registry.among_eq_some distinct).mp found
          have below := registry.refs_below item ref inside
          rw [← named] at below
          have early := lower target targetWanted below
          have doneDistinct : (done.map registry.name).Nodup := by
            rw [← split, List.map_append] at distinct
            exact distinct.of_append_left
          refine ⟨target, ?_, suited⟩
          rw [shown, overlay, (Registry.among_eq_some doneDistinct).mpr ⟨early, named⟩]
          rfl
        have stays : registry.Movable (keeper.view state) item := by
          refine (Registry.movable_congr sound.closed startClosed ?_ ?_).mpr movable
          · rw [shown, overlay, Registry.among_eq_none.mpr fresh]
            rfl
          · intro key above
            have missing : key ∉ done.map registry.name := by
              intro inside
              obtain ⟨other, early, rfl⟩ := List.mem_map.mp inside
              rw [← split] at ordered
              have below := (List.pairwise_append.mp ordered).2.2 other early item
                List.mem_cons_self
              exact absurd above (Nat.not_lt.mpr below)
            rw [shown, overlay, Registry.among_eq_none.mpr missing]
            rfl
        obtain ⟨middle, put, middleSound, placed⟩ := sound.put_placed fits stands stays
        have shownNow : keeper.view middle = overlay registry start (done ++ [item]) := by
          rw [placed, shown, overlay_snoc fresh]
        obtain ⟨after, rest, finished⟩ := induction split' middleSound shownNow
        refine ⟨after, ?_, finished⟩
        rw [taken, List.foldlM_cons, Outcome.bind_ok]
        exact ⟨middle, put, rest⟩

theorem fits_of_puts {items : List ρ} (distinct : (items.map registry.name).Nodup)
    (ordered : items.Pairwise fun left right =>
      registry.rank (registry.name left) ≤ registry.rank (registry.name right))
    (startClosed : registry.Closed start) (sound : keeper.Sound state)
    (agreeing : ∀ item ∈ items, keeper.view state (registry.name item) =
      start (registry.name item)) (above : ∀ item ∈ items, ∀ key,
      registry.rank (registry.name item) < registry.rank key →
        keeper.view state key = start key)
    (succeeded : (changed registry start items).foldlM keeper.put state = .ok after) :
    keeper.Sound after ∧
      (∀ key, key ∉ items.map registry.name →
        keeper.view after key = keeper.view state key) ∧
      ∀ item ∈ items, start (registry.name item) ≠ some item →
        registry.Movable start item ∧
          (keeper.view after (registry.name item) = some item → keeper.Fits item) := by
  induction items generalizing state with
  | nil =>
      obtain rfl : state = after := Except.ok.inj succeeded
      exact ⟨sound, fun _ _ => rfl, by simp⟩
  | cons item rest induction =>
      obtain ⟨fresh, restDistinct⟩ := List.nodup_cons.mp distinct
      obtain ⟨first, restOrdered⟩ := List.pairwise_cons.mp ordered
      by_cases same : start (registry.name item) = some item
      · have skipped : changed registry start (item :: rest) = changed registry start rest := by
          simp [changed, same]
        rw [skipped] at succeeded
        obtain ⟨final, untouched, fitting⟩ := induction restDistinct restOrdered sound
          (fun other inside => agreeing other (List.mem_cons_of_mem _ inside))
          (fun other inside => above other (List.mem_cons_of_mem _ inside)) succeeded
        refine ⟨final, ?_, ?_⟩
        · intro key outside
          exact untouched key fun inside => outside (List.mem_cons_of_mem _ inside)
        · intro other inside different
          rcases List.mem_cons.mp inside with rfl | later
          · exact absurd same different
          · exact fitting other later different
      · have taken : changed registry start (item :: rest) =
            item :: changed registry start rest := by
          simp [changed, same]
        rw [taken, List.foldlM_cons, Outcome.bind_ok] at succeeded
        obtain ⟨middle, put, putRest⟩ := succeeded
        obtain ⟨_, _, movable, stored, alike, shown, kept⟩ :=
          keeper.put_spec state item middle sound.valid put
        have elsewhere : ∀ key, key ≠ registry.name item →
            keeper.view middle key = keeper.view state key := by
          intro key different
          rw [shown, Registry.placed_other (alike.name ▸ different)]
        obtain ⟨final, untouched, fitting⟩ := induction restDistinct restOrdered
          (sound.put put)
          (by
            intro other inside
            have different : registry.name other ≠ registry.name item :=
              fun equal => fresh (equal ▸ List.mem_map_of_mem inside)
            rw [elsewhere _ different]
            exact agreeing other (List.mem_cons_of_mem _ inside))
          (by
            intro other inside key higher
            have different : key ≠ registry.name item := by
              rintro rfl
              exact absurd higher (Nat.not_lt.mpr (first other inside))
            rw [elsewhere _ different]
            exact above other (List.mem_cons_of_mem _ inside) key higher)
          putRest
        refine ⟨final, ?_, ?_⟩
        · intro key outside
          rw [untouched key fun inside => outside (List.mem_cons_of_mem _ inside),
            elsewhere key fun equal => outside (equal ▸ List.mem_cons_self)]
        · intro other inside different
          rcases List.mem_cons.mp inside with rfl | later
          · have startMovable := (Registry.movable_congr sound.closed startClosed
              (agreeing other inside) (above other inside)).mp movable
            refine ⟨startMovable, fun present => kept ?_⟩
            rw [untouched _ fresh, shown, alike.name, Registry.placed_self] at present
            exact Option.some.inj present
          · exact fitting other later different

end Puts

/-! ## Deleting what is not wanted -/

section Deletes

theorem deletes_of_closed {doomed : List κ} {kept : κ → Option ρ} (distinct : doomed.Nodup)
    (ordered : doomed.Pairwise fun left right => registry.rank right ≤ registry.rank left)
    (sound : keeper.Sound state) (keptClosed : registry.Closed kept)
    (present : ∀ key ∈ doomed, (keeper.view state key).isSome ∧ kept key = none)
    (rest : ∀ key, key ∉ doomed → keeper.view state key = kept key) :
    ∃ after, doomed.foldlM keeper.delete state = .ok after ∧ keeper.view after = kept := by
  induction doomed generalizing state with
  | nil => exact ⟨state, rfl, funext fun key => rest key List.not_mem_nil⟩
  | cons key others induction =>
      obtain ⟨fresh, othersDistinct⟩ := List.nodup_cons.mp distinct
      obtain ⟨first, othersOrdered⟩ := List.pairwise_cons.mp ordered
      obtain ⟨shown, unwanted⟩ := present key List.mem_cons_self
      -- A referrer has a higher rank, so it is gone or wanted, and no wanted
      -- item refers to an unwanted name.
      have unreferenced : ∀ other item, keeper.view state other = some item →
          ∀ ref ∈ registry.refs item, ref.target ≠ key := by
        intro other item found ref member target
        have below := registry.refs_below item ref member
        rw [target, (sound.closed other item found).1] at below
        by_cases leaving : other ∈ key :: others
        · rcases List.mem_cons.mp leaving with rfl | later
          · exact absurd below (Nat.lt_irrefl _)
          · exact absurd below (Nat.not_lt.mpr (first other later))
        · rw [rest other leaving] at found
          obtain ⟨_, resolved, _⟩ := (keptClosed other item found).2 ref member
          rw [target, unwanted] at resolved
          cases resolved
      have free : ¬ registry.Restricted (keeper.view state) key := by
        rintro ⟨other, item, found, ref, member, target, _⟩
        exact unreferenced other item found ref member target
      obtain ⟨middle, deleted⟩ := keeper.delete_free state key sound.valid shown free
      obtain ⟨_, _, removed⟩ := keeper.delete_spec state key middle sound.valid deleted
      have elsewhere : ∀ other, other ≠ key →
          keeper.view middle other = keeper.view state other := by
        intro other different
        rw [removed]
        apply Option.ext
        intro item
        simp only [Registry.removed_eq_some]
        constructor
        · rintro ⟨_, found, _⟩
          exact found
        · intro found
          refine ⟨different, found, Bool.eq_false_iff.mpr fun follows => ?_⟩
          obtain ⟨ref, member, target, _⟩ := Registry.follows_iff.mp follows
          exact unreferenced other item found ref member target
      obtain ⟨after, deletedRest, final⟩ := induction othersDistinct othersOrdered
        (sound.delete deleted)
        (by
          intro other inside
          have different : other ≠ key := fun equal => fresh (equal ▸ inside)
          rw [elsewhere other different]
          exact present other (List.mem_cons_of_mem _ inside))
        (by
          intro other outside
          by_cases here : other = key
          · subst here
            rw [removed, unwanted]
            simp [Registry.removed]
          · rw [elsewhere other here]
            exact rest other (by simp [here, outside]))
      refine ⟨after, ?_, final⟩
      rw [List.foldlM_cons, Outcome.bind_ok]
      exact ⟨middle, deleted, deletedRest⟩

theorem shown_of_deletes {doomed : List κ} (sound : keeper.Sound state)
    (succeeded : doomed.foldlM keeper.delete state = .ok after) :
    keeper.Sound after ∧ ∀ key item, keeper.view after key = some item →
      keeper.view state key = some item := by
  induction doomed generalizing state with
  | nil =>
      obtain rfl : state = after := Except.ok.inj succeeded
      exact ⟨sound, fun _ _ found => found⟩
  | cons key others induction =>
      rw [List.foldlM_cons, Outcome.bind_ok] at succeeded
      obtain ⟨middle, deleted, deletedRest⟩ := succeeded
      obtain ⟨_, _, removed⟩ := keeper.delete_spec state key middle sound.valid deleted
      obtain ⟨final, older⟩ := induction (sound.delete deleted) deletedRest
      refine ⟨final, fun other item found => ?_⟩
      have before := older other item found
      rw [removed] at before
      exact (Registry.removed_eq_some.mp before).2.1

end Deletes

/-! ## Bringing a keeper to a wanted list -/

/-- The names that a view shows and a wanted list does not have, higher ranks
first. -/
structure Doomed (registry : Registry κ ρ γ) (start : κ → Option ρ) (wanted : List ρ)
    (doomed : List κ) : Prop where
  distinct : doomed.Nodup
  ordered : doomed.Pairwise fun left right => registry.rank right ≤ registry.rank left
  mem : ∀ key, key ∈ doomed ↔ (start key).isSome ∧ key ∉ wanted.map registry.name

theorem bring_iff [DecidableEq ρ] {wanted : List ρ} {doomed : List κ} (sound : keeper.Sound state)
    (distinct : (wanted.map registry.name).Nodup) (ordered : wanted.Pairwise fun left right =>
      registry.rank (registry.name left) ≤ registry.rank (registry.name right))
    (unwanted : Doomed registry (keeper.view state) wanted doomed) :
    (∃ after, keeper.bring state wanted doomed = .ok after ∧
        keeper.view after = registry.among wanted) ↔
      (∀ item ∈ wanted, registry.Stands (registry.among wanted) item) ∧
        ∀ item ∈ wanted, keeper.view state (registry.name item) ≠ some item →
          keeper.Fits item ∧ registry.Movable (keeper.view state) item := by
  simp only [bring, Outcome.bind_ok]
  constructor
  · rintro ⟨after, ⟨middle, put, deleted⟩, final⟩
    obtain ⟨middleSound, _, fitting⟩ := fits_of_puts distinct ordered sound.closed sound
      (fun _ _ => rfl) (fun _ _ _ _ => rfl) put
    obtain ⟨afterSound, older⟩ := shown_of_deletes middleSound deleted
    have shown : ∀ item ∈ wanted, keeper.view after (registry.name item) = some item := by
      intro item member
      rw [final]
      exact (Registry.among_eq_some distinct).mpr ⟨member, rfl⟩
    constructor
    · intro item member
      rw [← final]
      exact (afterSound.closed _ item (shown item member)).2
    · intro item member different
      obtain ⟨movable, fits⟩ := fitting item member different
      exact ⟨fits (older _ item (shown item member)), movable⟩
  · rintro ⟨standing, fitting⟩
    obtain ⟨middle, put, middleSound, shown⟩ := puts_of_fits (List.nil_append wanted)
      distinct ordered standing fitting sound.closed sound
      (funext fun key => by simp [overlay, Registry.among])
    have wantedClosed : registry.Closed (registry.among wanted) := by
      intro key item found
      obtain ⟨member, named⟩ := (Registry.among_eq_some distinct).mp found
      exact ⟨named, standing item member⟩
    obtain ⟨after, deleted, final⟩ := deletes_of_closed unwanted.distinct unwanted.ordered
      middleSound wantedClosed
      (by
        intro key inside
        obtain ⟨present, missing⟩ := (unwanted.mem key).mp inside
        have absent := Registry.among_eq_none.mpr missing
        refine ⟨?_, absent⟩
        rwa [shown, overlay, absent, Option.none_or])
      (by
        intro key outside
        rw [shown, overlay]
        cases found : registry.among wanted key with
        | some item => rfl
        | none =>
            have missing := Registry.among_eq_none.mp found
            have absent : keeper.view state key = none := by
              rw [← Option.not_isSome_iff_eq_none]
              exact fun present => outside ((unwanted.mem key).mpr ⟨present, missing⟩)
            rw [absent]
            rfl)
    exact ⟨after, ⟨middle, put, deleted⟩, final⟩

end Keeper

end Barycenter
