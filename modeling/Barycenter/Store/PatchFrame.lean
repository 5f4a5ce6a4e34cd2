import Barycenter.Store.ImportInverts

/-!
# What a patch leaves alone

A patch names the resources that it puts and deletes, and a deletion takes the
backends of a pool or the bindings of a listener along.  Every other resource
stays as it is, nothing appears that was not put, and what is deleted is gone
unless it is put again.
-/

namespace Barycenter

namespace Store

open Config

def PatchOp.target : PatchOp → ResourceName
  | .put resource => resourceName resource
  | .delete kind key =>
      if engine : kind = .engine then ⟨.engine, engineKey, fun _ => rfl⟩ else named kind key engine

def PatchOp.isPut : PatchOp → Bool
  | .put _ => true
  | .delete _ _ => false

/-- The operation puts the resource, deletes it or takes it along. -/
def PatchOp.Touches (op : PatchOp) (item : Resource) : Prop :=
  op.target = resourceName item ∨ op.isPut = false ∧ goesAlong op.target item = true

variable {tables after : Tables} {op : PatchOp} {ops : List PatchOp}

theorem applyOp_shown (sound : tablesKeeper.Sound tables) (done : applyOp tables op = .ok after) :
    (op.isPut = true ∧ ∃ stored, resourceName stored = op.target ∧
        shown after = resources.placed (shown tables) stored) ∨
      (op.isPut = false ∧ shown after = resources.removed (shown tables) op.target) := by
  cases op with
  | put resource =>
      obtain ⟨-, -, -, stored, alike, placed, -⟩ :=
        tablesKeeper.put_spec tables resource after sound.valid done
      exact .inl ⟨rfl, stored, alike.name.symm, placed⟩
  | delete kind key =>
      refine .inr ⟨rfl, ?_⟩
      rw [PatchOp.target]
      split
      · rename_i engine
        subst engine
        exact (tablesKeeper.delete_spec tables ⟨.engine, engineKey, fun _ => rfl⟩ after sound.valid
          done).2.2
      · rename_i other
        exact (tablesKeeper.delete_spec tables (named kind key other) after sound.valid done).2.2

/-- What the operations have to do with the resources before and after them. -/
structure Framed (ops : List PatchOp) (before after : Resource → Prop) : Prop where
  stays : ∀ item, before item → (∀ op ∈ ops, ¬ op.Touches item) → after item
  comes : ∀ item, after item →
    before item ∨ ∃ op ∈ ops, op.isPut = true ∧ op.target = resourceName item
  gone : ∀ front op back, ops = front ++ op :: back → op.isPut = false →
    (∀ later ∈ back, later.isPut = true → later.target ≠ op.target) →
      ∀ item, after item → resourceName item ≠ op.target

def Tables.Shows (tables : Tables) (item : Resource) : Prop :=
  shown tables (resourceName item) = some item

theorem Framed.cons {middle : Tables} (sound : tablesKeeper.Sound tables)
    (first : applyOp tables op = .ok middle) (rest : Framed ops middle.Shows after.Shows) :
    Framed (op :: ops) tables.Shows after.Shows := by
  have step := applyOp_shown sound first
  refine ⟨fun item present free => ?_, fun item present => ?_, ?_⟩
  · refine rest.stays item ?_ fun other member => free other (List.mem_cons_of_mem _ member)
    have untouched := free op List.mem_cons_self
    rw [PatchOp.Touches, not_or] at untouched
    rcases step with ⟨-, stored, same, placed⟩ | ⟨deletes, removed⟩
    · rw [Tables.Shows, placed,
        Registry.placed_other fun here => untouched.1 (here.trans same).symm, present]
    · rw [Tables.Shows, removed, Registry.removed_eq_some, follows_eq]
      exact ⟨Ne.symm untouched.1, present,
        Bool.eq_false_iff.mpr fun goes => untouched.2 ⟨deletes, goes⟩⟩
  · rcases rest.comes item present with was | ⟨other, member, puts⟩
    · rcases step with ⟨puts, stored, same, placed⟩ | ⟨-, removed⟩
      · by_cases here : resourceName item = resourceName stored
        · exact .inr ⟨op, List.mem_cons_self, puts, (here.trans same).symm⟩
        · rw [Tables.Shows, placed, Registry.placed_other here] at was
          exact .inl was
      · rw [Tables.Shows, removed, Registry.removed_eq_some] at was
        exact .inl was.2.1
    · exact .inr ⟨other, List.mem_cons_of_mem _ member, puts⟩
  · intro front other back split deletes last item present same
    cases front with
    | cons _ front =>
        exact rest.gone front other back (List.cons.inj split).2 deletes last item present same
    | nil =>
        obtain ⟨rfl, rfl⟩ := List.cons.inj split
        rcases rest.comes item present with was | ⟨later, member, puts, again⟩
        · rcases step with ⟨puts, -⟩ | ⟨-, removed⟩
          · cases deletes.symm.trans puts
          · rw [Tables.Shows, removed, Registry.removed_eq_some] at was
            exact was.1 same
        · exact last later member puts (again.trans same)

theorem framed (sound : tablesKeeper.Sound tables) (done : applyOps tables ops = .ok after) :
    Framed ops tables.Shows after.Shows := by
  induction ops generalizing tables with
  | nil =>
      obtain rfl : tables = after := Except.ok.inj done
      exact ⟨fun _ present _ => present, fun _ present => .inl present, by simp⟩
  | cons op rest induction =>
      rw [applyOps, List.foldlM_cons, Outcome.bind_ok] at done
      obtain ⟨middle, first, others⟩ := done
      exact .cons sound first (induction (applyOp_sound sound first) others)

end Store

end Barycenter
