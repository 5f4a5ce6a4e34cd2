import Barycenter.Store.References

/-!
# The resources that the tables show

Every table shows the resources of one kind.  Setting a row places a resource,
erasing one takes it away, and nothing of another kind changes, but for the
backends of a pool and the bindings of a listener, which go along.
-/

namespace Barycenter

namespace Store

open Config

theorem resourceName_ext {left right : ResourceName}
    (kind : left.kind = right.kind) (key : left.key = right.key) : left = right := by
  cases left
  cases right
  cases kind
  cases key
  rfl

def shown (tables : Tables) (name : ResourceName) : Option Resource :=
  match name.kind with
  | .engine => tables.engine.map Resource.engine
  | .pool => (tables.pools.get? name.key).map fun row => .pool (poolOf name.key row)
  | .backend => (tables.backends.get? name.key).map fun row => .backend (backendOf name.key row)
  | .certificate =>
      (tables.certificates.get? name.key).map fun row =>
        .certificate (certificateOf name.key row)
  | .tlsPolicy =>
      (tables.tlsPolicies.get? name.key).map fun row => .tlsPolicy (tlsPolicyOf name.key row)
  | .addressSet =>
      (tables.addressSets.get? name.key).map fun row => .addressSet (addressSetOf name.key row)
  | .listener =>
      (tables.listeners.get? name.key).map fun row => .listener (listenerOf name.key row)
  | .httpRoute =>
      (tables.httpRoutes.get? name.key).map fun row => .httpRoute (httpRouteOf name.key row)
  | .passthroughRoute =>
      (tables.passthroughRoutes.get? name.key).map fun row =>
        .passthroughRoute (passthroughRouteOf name.key row)
  | .sniBinding =>
      (tables.sniBindings.get? name.key).map fun row => .sniBinding (sniBindingOf name.key row)

/-! ## One table, one kind -/

namespace Family

variable {β R : Type} {family : Family β R} {kind : ResourceKind} {wrap : β → Resource}

/-- The table of the family shows the resources of one kind, and only it does. -/
structure Shows (family : Family β R) (kind : ResourceKind) (wrap : β → Resource) : Prop where
  here : ∀ tables name, name.kind = kind →
    shown tables name =
      ((family.table tables).get? name.key).map fun row =>
        wrap (family.resource name.key row) := by
    rintro tables ⟨_, key, fixed⟩ rfl
    rfl
  elsewhere : ∀ tables rows name, name.kind ≠ kind →
    shown (family.withTable tables rows) name = shown tables name := by
    rintro tables rows ⟨kind, key, fixed⟩ other
    cases kind <;> first | rfl | exact absurd rfl other
  kindOf : ∀ item, (resourceName (wrap item)).kind = kind := by
    intro item
    rfl
  keyOf : ∀ item, (resourceName (wrap item)).key = family.key item := by
    intro item
    rfl

variable {tables : Tables}

theorem Shows.set (shows : family.Shows kind wrap) {key : String} {row : R} :
    shown (family.withTable tables ((family.table tables).set key row)) =
      resources.placed (shown tables) (wrap (family.resource key row)) := by
  have kindOf := shows.kindOf (family.resource key row)
  have keyOf := (shows.keyOf (family.resource key row)).trans (family.key_resource key row)
  funext name
  by_cases here : name = resourceName (wrap (family.resource key row))
  · subst here
    rw [shows.here _ _ kindOf, family.table_withTable, keyOf, OrderedMap.get?_set_same]
    exact Registry.placed_self.symm
  · have unchanged : resources.placed (shown tables) (wrap (family.resource key row)) name =
        shown tables name := Function.update_of_ne here _ _
    rw [unchanged]
    by_cases same : name.kind = kind
    · have different : key ≠ name.key := by
        rintro rfl
        exact here (resourceName_ext (same.trans kindOf.symm) keyOf.symm)
      rw [shows.here _ _ same, shows.here _ _ same, family.table_withTable,
        OrderedMap.get?_set_other _ _ different]
    · exact shows.elsewhere _ _ _ same

theorem Shows.erase (shows : family.Shows kind wrap) {name : ResourceName}
    (same : name.kind = kind) (other : ResourceName) :
    shown (family.withTable tables ((family.table tables).erase name.key)) other =
      if other = name then none else shown tables other := by
  by_cases kinds : other.kind = kind
  · rw [shows.here _ _ kinds, shows.here _ _ kinds, family.table_withTable,
      OrderedMap.get?_erase]
    by_cases keys : other.key = name.key
    · rw [if_pos keys, if_pos (resourceName_ext (kinds.trans same.symm) keys)]
      rfl
    · rw [if_neg keys, if_neg fun equal => keys (congrArg ResourceName.key equal)]
  · rw [shows.elsewhere _ _ _ kinds,
      if_neg fun equal => kinds ((congrArg ResourceName.kind equal).trans same)]

theorem Shows.present (shows : family.Shows kind wrap) {name : ResourceName}
    (same : name.kind = kind) :
    (shown tables name).isSome = ((family.table tables).get? name.key).isSome := by
  rw [shows.here _ _ same, Option.isSome_map]

end Family

theorem tables_show :
    poolFamily.Shows .pool Resource.pool ∧ backendFamily.Shows .backend Resource.backend ∧
      certificateFamily.Shows .certificate Resource.certificate ∧
      tlsPolicyFamily.Shows .tlsPolicy Resource.tlsPolicy ∧
      addressSetFamily.Shows .addressSet Resource.addressSet ∧
      listenerFamily.Shows .listener Resource.listener ∧
      httpRouteFamily.Shows .httpRoute Resource.httpRoute ∧
      passthroughRouteFamily.Shows .passthroughRoute Resource.passthroughRoute ∧
      sniBindingFamily.Shows .sniBinding Resource.sniBinding :=
  ⟨{}, {}, {}, {}, {}, {}, {}, {}, {}⟩

theorem pool_shows : poolFamily.Shows .pool Resource.pool := tables_show.1

theorem backend_shows : backendFamily.Shows .backend Resource.backend := tables_show.2.1

theorem certificate_shows : certificateFamily.Shows .certificate Resource.certificate :=
  tables_show.2.2.1

theorem tlsPolicy_shows : tlsPolicyFamily.Shows .tlsPolicy Resource.tlsPolicy :=
  tables_show.2.2.2.1

theorem addressSet_shows : addressSetFamily.Shows .addressSet Resource.addressSet :=
  tables_show.2.2.2.2.1

theorem listener_shows : listenerFamily.Shows .listener Resource.listener :=
  tables_show.2.2.2.2.2.1

theorem httpRoute_shows : httpRouteFamily.Shows .httpRoute Resource.httpRoute :=
  tables_show.2.2.2.2.2.2.1

theorem passthroughRoute_shows : passthroughRouteFamily.Shows .passthroughRoute Resource.passthroughRoute :=
  tables_show.2.2.2.2.2.2.2.1

theorem sniBinding_shows : sniBindingFamily.Shows .sniBinding Resource.sniBinding :=
  tables_show.2.2.2.2.2.2.2.2

end Store

end Barycenter
