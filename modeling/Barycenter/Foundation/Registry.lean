import Mathlib.Logic.Function.Basic
import Mathlib.Data.List.Nodup
import Barycenter.Foundation.Outcome

/-!
# Registries of items that refer to each other

A registry holds at most one item under each name.  An item refers to the names
of others; a reference may pin its target to certain traits, and it may go with
its target when the target is removed, or forbid the removal.  References lead
from higher to lower ranks.

The main result is about bringing a registry to a wanted list of items: put, in
ascending rank, the items that are missing or different, then delete, in
descending rank, the names that are not wanted.  It says exactly when this ends
in the wanted items.
-/

namespace Barycenter

/-- A reference that pins its target says which traits the target may have. -/
structure Reference (κ γ : Type) where
  target : κ
  pinned : Option (γ → Bool)
  cascades : Bool

structure Registry (κ ρ γ : Type) where
  name : ρ → κ
  trait : ρ → γ
  refs : ρ → List (Reference κ γ)
  rank : κ → Nat
  refs_below : ∀ item, ∀ ref ∈ refs item, rank ref.target < rank (name item)
  /-- Nothing refers to an item that may go with its target. -/
  leaves : ∀ item, ∀ ref ∈ refs item, ref.cascades = true →
    ∀ other, ∀ back ∈ refs other, back.target ≠ name item

namespace Registry

variable {κ ρ γ : Type} (registry : Registry κ ρ γ)

/-! ## Views -/

section Views

variable (view : κ → Option ρ)

def Resolves (ref : Reference κ γ) : Prop :=
  ∃ item, view ref.target = some item ∧ ∀ suits ∈ ref.pinned, suits (registry.trait item) = true

def Stands (item : ρ) : Prop :=
  ∀ ref ∈ registry.refs item, registry.Resolves view ref

/-- Every item is under its own name, and all its references resolve. -/
def Closed : Prop :=
  ∀ key item, view key = some item → registry.name item = key ∧ registry.Stands view item

def Pinned (key : κ) : Prop :=
  ∃ other item, view other = some item ∧
    ∃ ref ∈ registry.refs item, ref.target = key ∧ ref.pinned.isSome

/-- An item keeps the trait of the one it replaces, unless nothing pins it. -/
def Movable (item : ρ) : Prop :=
  ∀ old, view (registry.name item) = some old →
    registry.trait old = registry.trait item ∨ ¬ registry.Pinned view (registry.name item)

def Restricted (key : κ) : Prop :=
  ∃ other item, view other = some item ∧
    ∃ ref ∈ registry.refs item, ref.target = key ∧ ref.cascades = false

section Changes

variable [DecidableEq κ]

def follows (key : κ) (item : ρ) : Bool :=
  (registry.refs item).any fun ref => decide (ref.target = key) && ref.cascades

def placed (item : ρ) : κ → Option ρ :=
  Function.update view (registry.name item) (some item)

def removed (key : κ) : κ → Option ρ := fun other =>
  if other = key then none else (view other).filter fun item => !registry.follows key item

def among (wanted : List ρ) : κ → Option ρ := fun key =>
  wanted.find? fun item => decide (registry.name item = key)

end Changes

end Views

variable {registry} {view : κ → Option ρ}

/-- Two items that the registry cannot tell apart by their place in it. -/
structure Alike (registry : Registry κ ρ γ) (left right : ρ) : Prop where
  name : registry.name left = registry.name right
  trait : registry.trait left = registry.trait right
  refs : registry.refs left = registry.refs right

theorem Alike.stands {left right : ρ} (alike : registry.Alike left right)
    (stands : registry.Stands view left) : registry.Stands view right := by
  unfold Stands at stands ⊢
  rwa [← alike.refs]

theorem Alike.movable {left right : ρ} (alike : registry.Alike left right)
    (movable : registry.Movable view left) : registry.Movable view right := by
  unfold Movable at movable ⊢
  rwa [← alike.name, ← alike.trait]

variable {item : ρ}

/-- Whether an item can replace another depends on its own name and on the
names of higher rank only. -/
theorem movable_congr {left right : κ → Option ρ} (leftClosed : registry.Closed left)
    (rightClosed : registry.Closed right)
    (here : left (registry.name item) = right (registry.name item))
    (above : ∀ key, registry.rank (registry.name item) < registry.rank key →
      left key = right key) : registry.Movable left item ↔ registry.Movable right item := by
  have pinned : registry.Pinned left (registry.name item) ↔
      registry.Pinned right (registry.name item) := by
    constructor
    · rintro ⟨other, holder, found, ref, member, target, pins⟩
      have below := registry.refs_below holder ref member
      rw [target, (leftClosed other holder found).1] at below
      exact ⟨other, holder, above other below ▸ found, ref, member, target, pins⟩
    · rintro ⟨other, holder, found, ref, member, target, pins⟩
      have below := registry.refs_below holder ref member
      rw [target, (rightClosed other holder found).1] at below
      exact ⟨other, holder, (above other below).symm ▸ found, ref, member, target, pins⟩
  simp only [Movable, here, pinned]

/-! ## Changes -/

variable [DecidableEq κ] {key : κ}

theorem follows_iff :
    registry.follows key item = true ↔
      ∃ ref ∈ registry.refs item, ref.target = key ∧ ref.cascades = true := by
  simp [follows]

theorem placed_self : registry.placed view item (registry.name item) = some item :=
  Function.update_self ..

theorem placed_other (different : key ≠ registry.name item) :
    registry.placed view item key = view key :=
  Function.update_of_ne different ..

/-- Where a reference of a kept item resolves, it resolves after a placement
that leaves every pinned trait as it is. -/
theorem resolves_placed {ref : Reference κ γ} (resolves : registry.Resolves view ref)
    (kept : ref.pinned.isSome → ref.target = registry.name item →
      ∀ old, view (registry.name item) = some old →
        registry.trait old = registry.trait item) :
    registry.Resolves (registry.placed view item) ref := by
  obtain ⟨old, found, suited⟩ := resolves
  by_cases here : ref.target = registry.name item
  · refine ⟨item, here ▸ placed_self, ?_⟩
    intro suits pins
    have same := kept (Option.isSome_iff_exists.mpr ⟨suits, pins⟩) here old (here ▸ found)
    exact same ▸ suited suits pins
  · exact ⟨old, (placed_other here).trans found, suited⟩

theorem Closed.placed (closed : registry.Closed view) (stands : registry.Stands view item)
    (movable : registry.Movable view item) : registry.Closed (registry.placed view item) := by
  intro key stored found
  by_cases here : key = registry.name item
  · subst here
    obtain rfl : item = stored := Option.some.inj (placed_self.symm.trans found)
    refine ⟨rfl, fun ref member => resolves_placed (stands ref member) ?_⟩
    intro _ self
    have below := registry.refs_below item ref member
    rw [self] at below
    exact absurd below (Nat.lt_irrefl _)
  · have before : view key = some stored := by
      simpa [Registry.placed, here] using found
    obtain ⟨named, standing⟩ := closed key stored before
    refine ⟨named, fun ref member => resolves_placed (standing ref member) ?_⟩
    intro pins self old present
    rcases movable old present with same | loose
    · exact same
    · exact absurd ⟨key, stored, before, ref, member, self, pins⟩ loose

theorem removed_eq_some {key other : κ} :
    registry.removed view key other = some item ↔
      other ≠ key ∧ view other = some item ∧ registry.follows key item = false := by
  unfold removed
  by_cases here : other = key
  · simp [here]
  · simp [here, Option.filter_eq_some_iff]

theorem Closed.removed (closed : registry.Closed view) (free : ¬ registry.Restricted view key) :
    registry.Closed (registry.removed view key) := by
  intro other item found
  obtain ⟨_, before, stays⟩ := removed_eq_some.mp found
  obtain ⟨named, standing⟩ := closed other item before
  refine ⟨named, fun ref member => ?_⟩
  obtain ⟨target, present, suited⟩ := standing ref member
  refine ⟨target, removed_eq_some.mpr ⟨?_, present, ?_⟩, suited⟩
  · rintro rfl
    cases goes : ref.cascades with
    | false => exact free ⟨other, item, before, ref, member, rfl, goes⟩
    | true =>
        rw [follows_iff.mpr ⟨ref, member, rfl, goes⟩] at stays
        cases stays
  · -- A target that goes along would be referred to, and nothing refers to it.
    rw [Bool.eq_false_iff]
    intro goesToo
    obtain ⟨away, itsRef, _, cascades⟩ := follows_iff.mp goesToo
    exact registry.leaves target away itsRef cascades item ref member
      (closed ref.target target present).1.symm

/-! ## Wanted items -/

section Wanted

variable {wanted : List ρ}

theorem among_eq_some (distinct : (wanted.map registry.name).Nodup) :
    registry.among wanted key = some item ↔ item ∈ wanted ∧ registry.name item = key := by
  constructor
  · intro found
    exact ⟨List.mem_of_find?_eq_some found, by simpa using List.find?_some found⟩
  · rintro ⟨member, rfl⟩
    induction wanted with
    | nil => cases member
    | cons first rest induction =>
        obtain ⟨fresh, restDistinct⟩ := List.nodup_cons.mp distinct
        rcases List.mem_cons.mp member with rfl | later
        · simp [among]
        · have different : registry.name first ≠ registry.name item := by
            intro same
            exact fresh (same ▸ List.mem_map_of_mem later)
          simpa [among, different] using induction restDistinct later

theorem among_eq_none : registry.among wanted key = none ↔ key ∉ wanted.map registry.name := by
  simp [among]

end Wanted

end Registry

end Barycenter
