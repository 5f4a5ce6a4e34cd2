import Barycenter.Store.ResourcePuts

/-!
# The working tables keep the registry

Deleting a resource asks whether a listener, a route or a binding still refers
to it; the backends of a pool and the bindings of a listener go along.  With
that the working tables are a keeper of the registry of resources, and tables
that operations have made from empty ones hold resources whose references all
resolve.
-/

namespace Barycenter

namespace Store

open Config

/-! ## What goes along -/

/-- Only backends go with their pool and bindings with their listener. -/
def goesAlong (name : ResourceName) : Resource → Bool
  | .backend backend => decide (poolName backend.pool = name)
  | .sniBinding binding => decide (listenerName binding.listener = name)
  | _ => false

theorem follows_eq (name : ResourceName) (item : Resource) :
    resources.follows name item = goesAlong name item := by
  have staying {refs : List ResourceReference} (stay : ∀ ref ∈ refs, ref.cascades = false) :
      (refs.any fun ref => decide (ref.target = name) && ref.cascades) = false := by
    rw [List.any_eq_false]
    intro ref member
    simp [stay ref member]
  cases item with
  | backend backend => simp [Registry.follows, resources, resourceRefs, goesAlong]
  | sniBinding binding =>
      simp [Registry.follows, resources, resourceRefs, goesAlong, plainReference]
  | listener listener => exact staying fun ref member => (bodyReferences_spec member).2
  | httpRoute route =>
      exact staying fun ref member => by
        rcases List.mem_cons.mp member with rfl | rest
        · rfl
        · exact (actionReferences_spec rest).2
  | passthroughRoute route =>
      exact staying fun ref member => by
        rcases List.mem_cons.mp member with rfl | rest
        · rfl
        · exact (passthroughReferences_spec rest).2
  | engine _ | pool _ | certificate _ | tlsPolicy _ | addressSet _ => rfl

section Deletes

variable {tables after : Tables} {name : ResourceName}

theorem goesAlong_kinds {item : Resource} (goes : goesAlong name item = true) :
    ((resourceName item).kind = .backend ∧ name.kind = .pool) ∨
      ((resourceName item).kind = .sniBinding ∧ name.kind = .listener) := by
  cases item with
  | backend backend => exact .inl ⟨rfl, (congrArg ResourceName.kind (of_decide_eq_true goes)).symm⟩
  | sniBinding binding => exact .inr ⟨rfl, (congrArg ResourceName.kind (of_decide_eq_true goes)).symm⟩
  | _ => cases goes

theorem removed_other {other : ResourceName} (different : other ≠ name)
    (backend : ¬ (other.kind = .backend ∧ name.kind = .pool))
    (binding : ¬ (other.kind = .sniBinding ∧ name.kind = .listener)) :
    resources.removed (shown tables) name other = shown tables other := by
  apply Option.ext
  intro item
  rw [Registry.removed_eq_some, follows_eq]
  constructor
  · rintro ⟨_, found, _⟩
    exact found
  · intro found
    refine ⟨different, found, Bool.eq_false_iff.mpr fun goes => ?_⟩
    rcases goesAlong_kinds goes with kinds | kinds
    · exact backend (shown_name found ▸ kinds)
    · exact binding (shown_name found ▸ kinds)

theorem removed_alone (pool : name.kind ≠ .pool) (listener : name.kind ≠ .listener)
    (other : ResourceName) :
    resources.removed (shown tables) name other =
      if other = name then none else shown tables other := by
  by_cases here : other = name
  · simp [Registry.removed, here]
  · rw [if_neg here]
    exact removed_other here (fun kinds => pool kinds.2) (fun kinds => listener kinds.2)

theorem not_restricted
    (apart : name.kind ∉ [ResourceKind.pool, .certificate, .tlsPolicy, .listener]) :
    ¬ resources.Restricted (shown tables) name := by
  rintro ⟨other, item, _, ref, member, target, _⟩
  have kind := (resourceRefs_spec member).2.1
  rw [target] at kind
  exact apart kind

theorem present_ok {α : Type} {table : OrderedMap String α} {kind : ResourceKind}
    {key : String} :
    present table kind key = .ok () ↔ (table.get? key).isSome := by
  unfold present
  cases (table.get? key).isSome <;> simp

theorem unreferenced_ok {constraint : String} {referenced : Bool} :
    unreferenced constraint referenced = .ok () ↔ ¬ referenced = true := by
  unfold unreferenced
  cases referenced <;> simp

structure DeleteDone (tables after : Tables) (name : ResourceName) : Prop where
  kept : RowsKept after
  free : ¬ resources.Restricted (shown tables) name
  removed : shown after = resources.removed (shown tables) name

theorem Family.Shows.erased {β R : Type} {family : Family β R} {kind : ResourceKind}
    {wrap : β → Resource} (shows : family.Shows kind wrap) (same : name.kind = kind)
    (pool : kind ≠ .pool) (listener : kind ≠ .listener) :
    shown (family.withTable tables ((family.table tables).erase name.key)) =
      resources.removed (shown tables) name := by
  funext other
  rw [removed_alone (same ▸ pool) (same ▸ listener), shows.erase same]

theorem pool_erased (same : name.kind = .pool) :
    shown { tables with
        pools := tables.pools.erase name.key
        backends := tables.backends.filterValues fun row => decide (row.pool ≠ name.key) } =
      resources.removed (shown tables) name := by
  funext other
  by_cases here : other = name
  · subst here
    obtain ⟨_, key, fixed⟩ := other
    subst same
    simp [Registry.removed, shown]
  by_cases backend : other.kind = .backend
  · have named : ∀ key, poolName key = name ↔ key = name.key := fun key =>
      ⟨fun equal => congrArg ResourceName.key equal,
        fun equal => resourceName_ext same.symm equal⟩
    obtain ⟨_, key, fixed⟩ := other
    subst backend
    simp only [Registry.removed, if_neg here, shown, OrderedMap.get?_filterValues]
    cases tables.backends.get? key with
    | none => rfl
    | some row =>
        by_cases leaving : row.pool = name.key
        · simp [Option.filter, follows_eq, goesAlong, backendOf, named, leaving]
        · simp [Option.filter, follows_eq, goesAlong, backendOf, named, leaving]
  rw [removed_other here (fun kinds => backend kinds.1)
    (fun kinds => by cases same.symm.trans kinds.2)]
  obtain ⟨kind, key, fixed⟩ := other
  cases kind with
  | pool =>
      have different : key ≠ name.key := fun equal => here (resourceName_ext same.symm equal)
      simp only [shown, OrderedMap.get?_erase, if_neg different]
  | backend => exact absurd rfl backend
  | _ => rfl

theorem listener_erased (same : name.kind = .listener) :
    shown { tables with
        listeners := tables.listeners.erase name.key
        sniBindings := tables.sniBindings.filterValues fun row =>
          decide (row.listener.key ≠ name.key) } =
      resources.removed (shown tables) name := by
  funext other
  by_cases here : other = name
  · subst here
    obtain ⟨_, key, fixed⟩ := other
    subst same
    simp [Registry.removed, shown]
  by_cases binding : other.kind = .sniBinding
  · have named : ∀ key, listenerName key = name ↔ key = name.key := fun key =>
      ⟨fun equal => congrArg ResourceName.key equal,
        fun equal => resourceName_ext same.symm equal⟩
    obtain ⟨_, key, fixed⟩ := other
    subst binding
    simp only [Registry.removed, if_neg here, shown, OrderedMap.get?_filterValues]
    cases tables.sniBindings.get? key with
    | none => rfl
    | some row =>
        by_cases leaving : row.listener.key = name.key
        · simp [Option.filter, follows_eq, goesAlong, sniBindingOf, named, leaving]
        · simp [Option.filter, follows_eq, goesAlong, sniBindingOf, named, leaving]
  rw [removed_other here (fun kinds => by cases same.symm.trans kinds.2)
    (fun kinds => binding kinds.1)]
  obtain ⟨kind, key, fixed⟩ := other
  cases kind with
  | listener =>
      have different : key ≠ name.key := fun equal => here (resourceName_ext same.symm equal)
      simp only [shown, OrderedMap.get?_erase, if_neg different]
  | sniBinding => exact absurd rfl binding
  | _ => rfl

variable (kept : RowsKept tables)

include kept

theorem restricted_iff :
    resources.Restricted (shown tables) name ↔
      match name.kind with
      | .pool => poolReferenced tables name.key = true
      | .certificate => certificateReferenced tables name.key = true
      | .tlsPolicy => policyReferenced tables name.key = true
      | .listener => listenerRouted tables name.key = true
      | _ => False := by
  obtain ⟨kind, key, fixed⟩ := name
  cases kind with
  | pool => exact restricted_pool kept
  | certificate => exact restricted_certificate kept
  | tlsPolicy => exact restricted_policy kept
  | listener => exact restricted_listener
  | _ => exact iff_false_intro (not_restricted (by simp))

theorem deleteResource_done (done : deleteResource tables name.kind name.key = .ok after) :
    DeleteDone tables after name := by
  have asked := @restricted_iff tables name kept
  cases kinds : name.kind
  all_goals
    simp only [kinds, deleteResource, Outcome.bind_ok, pure, Except.pure, Except.ok.injEq]
      at done asked
  case engine =>
    split at done
    case isFalse => cases done
    cases done
    refine ⟨{ kept with }, asked.mp, ?_⟩
    funext other
    rw [removed_alone (by simp [kinds]) (by simp [kinds])]
    by_cases same : other = name
    · subst same
      simp [shown, kinds]
    · rw [if_neg same]
      obtain ⟨kind, key, fixed⟩ := other
      cases kind with
      | engine =>
          have equal : ResourceName.mk .engine key fixed = name :=
            resourceName_ext kinds.symm ((fixed rfl).trans (name.fixed kinds).symm)
          exact absurd equal same
      | _ => rfl
  case pool =>
    obtain ⟨_, _, _, free, rfl⟩ := done
    exact ⟨{ kept with backends := kept.backends.filterValues },
      fun restricted => unreferenced_ok.mp free (asked.mp restricted), pool_erased kinds⟩
  case backend =>
    obtain ⟨_, _, rfl⟩ := done
    exact ⟨{ kept with backends := kept.backends.erase }, asked.mp,
      backend_shows.erased kinds (by decide) (by decide)⟩
  case certificate =>
    obtain ⟨_, _, _, free, rfl⟩ := done
    exact ⟨{ kept with certificates := kept.certificates.erase },
      fun restricted => unreferenced_ok.mp free (asked.mp restricted),
      certificate_shows.erased kinds (by decide) (by decide)⟩
  case tlsPolicy =>
    obtain ⟨_, _, _, free, rfl⟩ := done
    exact ⟨{ kept with }, fun restricted => unreferenced_ok.mp free (asked.mp restricted),
      tlsPolicy_shows.erased kinds (by decide) (by decide)⟩
  case addressSet =>
    obtain ⟨_, _, rfl⟩ := done
    exact ⟨{ kept with }, asked.mp, addressSet_shows.erased kinds (by decide) (by decide)⟩
  case listener =>
    obtain ⟨_, _, _, free, rfl⟩ := done
    exact ⟨{ kept with listeners := kept.listeners.erase },
      fun restricted => unreferenced_ok.mp free (asked.mp restricted), listener_erased kinds⟩
  case httpRoute =>
    obtain ⟨_, _, rfl⟩ := done
    exact ⟨{ kept with httpRoutes := kept.httpRoutes.erase }, asked.mp,
      httpRoute_shows.erased kinds (by decide) (by decide)⟩
  case passthroughRoute =>
    obtain ⟨_, _, rfl⟩ := done
    exact ⟨{ kept with passthroughRoutes := kept.passthroughRoutes.erase }, asked.mp,
      passthroughRoute_shows.erased kinds (by decide) (by decide)⟩
  case sniBinding =>
    obtain ⟨_, _, rfl⟩ := done
    exact ⟨{ kept with }, asked.mp, sniBinding_shows.erased kinds (by decide) (by decide)⟩

theorem deleteResource_free (shows : (shown tables name).isSome)
    (free : ¬ resources.Restricted (shown tables) name) :
    ∃ after, deleteResource tables name.kind name.key = .ok after := by
  rw [restricted_iff kept] at free
  cases kinds : name.kind
  case engine =>
    have settled : tables.engine.isSome := by simpa [shown, kinds] using shows
    exact ⟨_, by rw [deleteResource, if_pos settled]⟩
  all_goals simp only [kinds, deleteResource, Outcome.bind_ok] at free ⊢
  case pool =>
    exact ⟨_, (), present_ok.mpr (pool_shows.present kinds ▸ shows), (),
      unreferenced_ok.mpr free, rfl⟩
  case backend => exact ⟨_, (), present_ok.mpr (backend_shows.present kinds ▸ shows), rfl⟩
  case certificate =>
    exact ⟨_, (), present_ok.mpr (certificate_shows.present kinds ▸ shows), (),
      unreferenced_ok.mpr free, rfl⟩
  case tlsPolicy =>
    exact ⟨_, (), present_ok.mpr (tlsPolicy_shows.present kinds ▸ shows), (),
      unreferenced_ok.mpr free, rfl⟩
  case addressSet => exact ⟨_, (), present_ok.mpr (addressSet_shows.present kinds ▸ shows), rfl⟩
  case listener =>
    exact ⟨_, (), present_ok.mpr (listener_shows.present kinds ▸ shows), (),
      unreferenced_ok.mpr free, rfl⟩
  case httpRoute => exact ⟨_, (), present_ok.mpr (httpRoute_shows.present kinds ▸ shows), rfl⟩
  case passthroughRoute =>
    exact ⟨_, (), present_ok.mpr (passthroughRoute_shows.present kinds ▸ shows), rfl⟩
  case sniBinding => exact ⟨_, (), present_ok.mpr (sniBinding_shows.present kinds ▸ shows), rfl⟩

end Deletes

/-! ## The keeper -/

def tablesKeeper : Keeper resources Tables StoreError :=
  { view := shown
    Valid := RowsKept
    Fits := ColumnsFit
    put := putResource
    delete := fun tables name => deleteResource tables name.kind name.key
    put_spec := fun _ _ _ kept done =>
      let put := putResource_done kept done
      ⟨put.kept, put.stands, put.movable, put.placed⟩
    put_fits := fun _ _ kept fits stands movable => putResource_fits kept fits stands movable
    delete_spec := fun _ _ _ kept done =>
      let deleted := deleteResource_done kept done
      ⟨deleted.kept, deleted.free, deleted.removed⟩
    delete_free := fun _ _ kept shows free => deleteResource_free kept shows free }

theorem sound_empty : tablesKeeper.Sound {} where
  valid := RowsKept.empty
  closed := by
    rintro ⟨kind, key, fixed⟩ item found
    cases kind <;> cases found

theorem applyOp_sound {tables after : Tables} {op : PatchOp} (sound : tablesKeeper.Sound tables)
    (done : applyOp tables op = .ok after) : tablesKeeper.Sound after := by
  cases op with
  | put resource => exact sound.put done
  | delete kind key =>
      by_cases engine : kind = .engine
      · subst engine
        exact @Keeper.Sound.delete _ _ _ _ _ _ _ tablesKeeper tables after
          ⟨.engine, engineKey, fun _ => rfl⟩ sound done
      · exact @Keeper.Sound.delete _ _ _ _ _ _ _ tablesKeeper tables after
          (named kind key engine) sound done

theorem applyOps_sound {tables after : Tables} {ops : List PatchOp}
    (sound : tablesKeeper.Sound tables) (done : applyOps tables ops = .ok after) :
    tablesKeeper.Sound after := by
  induction ops generalizing tables with
  | nil =>
      obtain rfl : tables = after := Except.ok.inj done
      exact sound
  | cons op rest induction =>
      rw [applyOps, List.foldlM_cons, Outcome.bind_ok] at done
      obtain ⟨middle, first, others⟩ := done
      exact induction (applyOp_sound sound first) others

end Store

end Barycenter
