import Mathlib.Data.List.Forall2
import Barycenter.Store.Readback

/-!
# Putting and reading one kind of resource

Every kind of resource has a table, a way to spread a resource over a row, the
constraints of that row, and a way to put the resource together again.  This is
what the kinds share: resources with distinct keys that are put one after the
other into an empty table all succeed exactly when each of them has a row that
its constraints allow, and they are read back in the same order and unchanged
exactly when, besides, their keys are sorted and each row gives its own
resource back.
-/

namespace Barycenter

namespace OrderedMap

variable {κ α : Type} [DecidableEq κ]

theorem entries_set_fresh {map : OrderedMap κ α} {key : κ} {value : α}
    (fresh : map.get? key = none) :
    (map.set key value).entries = map.entries ++ [(key, value)] := by
  suffices appended : ∀ entries : List (κ × α), lookup entries key = none →
      overwrite entries key value = entries ++ [(key, value)] from
    appended map.entries fresh
  intro entries missing
  induction entries with
  | nil => rfl
  | cons entry rest induction =>
      obtain ⟨stored, old⟩ := entry
      by_cases same : stored = key
      · simp [lookup, same] at missing
      · simp only [lookup, if_neg same] at missing
        simp only [overwrite, if_neg same, List.cons_append, induction missing]

theorem eq_of_entries {left right : OrderedMap κ α}
    (same : left.entries = right.entries) : left = right := by
  cases left
  cases right
  cases same
  rfl

theorem filterValues_eq_self {map : OrderedMap κ α} {kept : α → Bool}
    (every : ∀ value ∈ map.values, kept value = true) : map.filterValues kept = map := by
  apply eq_of_entries
  apply List.filter_eq_self.mpr
  intro entry member
  exact every entry.2 (List.mem_map_of_mem member)

end OrderedMap

namespace Store

open Config

def Ascending (collation : Collation) (keys : List String) : Prop :=
  keys.Pairwise fun left right => collation.le left right = true ∧ left ≠ right

variable {collation : Collation}

theorem Ascending.nodup {keys : List String} (ascending : Ascending collation keys) : keys.Nodup :=
  ascending.imp fun ordered => ordered.2

structure Family (β R : Type) where
  table : Tables → OrderedMap String R
  withTable : Tables → OrderedMap String R → Tables
  key : β → String
  row : Tables → β → Except StoreError R
  checks : String → R → Checks
  put : Tables → β → Except StoreError Tables
  resource : String → R → β
  table_withTable : ∀ tables rows, table (withTable tables rows) = rows
  withTable_withTable : ∀ tables rows other,
    withTable (withTable tables rows) other = withTable tables other
  withTable_table : ∀ tables, withTable tables (table tables) = tables
  row_withTable : ∀ tables rows item, row (withTable tables rows) item = row tables item
  put_fresh : ∀ tables item, (table tables).get? (key item) = none →
    put tables item = do
      let stored ← row tables item
      enforce (checks (key item) stored)
      return withTable tables ((table tables).set (key item) stored)
  put_frame : ∀ tables item after, put tables item = .ok after →
    withTable tables (table after) = after
  key_resource : ∀ named stored, key (resource named stored) = named

namespace Family

variable {β R : Type} (family : Family β R)

/-- The resource has this row, and the constraints allow it. -/
def Stores (tables : Tables) (item : β) (stored : R) : Prop :=
  family.row tables item = .ok stored ∧
    ∀ check ∈ family.checks (family.key item) stored, check.2 = true

/-- The resource has an allowed row from which it can be read back. -/
def Keeps (tables : Tables) (item : β) : Prop :=
  ∃ stored, family.Stores tables item stored ∧
    family.resource (family.key item) stored = item

variable {family} {tables : Tables}

theorem stores_withTable {rows : OrderedMap String R} {item : β} {stored : R} :
    family.Stores (family.withTable tables rows) item stored ↔
      family.Stores tables item stored := by
  simp only [Stores, family.row_withTable]

variable {tables after : Tables}

theorem put_ok {item : β} (fresh : (family.table tables).get? (family.key item) = none) :
    family.put tables item = .ok after ↔
      ∃ stored, family.Stores tables item stored ∧
        family.withTable tables
          ((family.table tables).set (family.key item) stored) = after := by
  rw [family.put_fresh tables item fresh]
  simp only [Outcome.bind_ok, pure, Except.pure, Except.ok.injEq, Stores]
  constructor
  · rintro ⟨stored, spread, unit, allowed, same⟩
    exact ⟨stored, ⟨spread, enforce_eq_ok.mp allowed⟩, same⟩
  · rintro ⟨stored, ⟨spread, allowed⟩, same⟩
    exact ⟨stored, spread, (), enforce_eq_ok.mpr allowed, same⟩

variable {items : List β}

theorem putAll_frame (succeeded : items.foldlM family.put tables = .ok after) :
    ∃ rows, family.withTable tables rows = after := by
  induction items generalizing tables with
  | nil =>
      obtain rfl : tables = after := Except.ok.inj succeeded
      exact ⟨_, family.withTable_table tables⟩
  | cons item rest induction =>
      rw [List.foldlM_cons, Outcome.bind_ok] at succeeded
      obtain ⟨middle, putOne, putRest⟩ := succeeded
      obtain ⟨rows, rfl⟩ := induction putRest
      rw [← family.put_frame tables item middle putOne, family.withTable_withTable]
      exact ⟨rows, rfl⟩

def entriesOf (family : Family β R) (items : List β) (rows : List R) : List (String × R) :=
  List.zipWith (fun item stored => (family.key item, stored)) items rows

/-- Putting resources with new and distinct keys succeeds exactly when each of
them has an allowed row, and appends these rows. -/
theorem putAll_ok (distinct : (items.map family.key).Nodup)
    (fresh : ∀ item ∈ items, (family.table tables).get? (family.key item) = none) :
    items.foldlM family.put tables = .ok after ↔
      ∃ rows final, List.Forall₂ (family.Stores tables) items rows ∧
        final.entries =
          (family.table tables).entries ++ family.entriesOf items rows ∧
        family.withTable tables final = after := by
  induction items generalizing tables with
  | nil =>
      simp only [List.foldlM_nil, pure, Except.pure, Except.ok.injEq]
      constructor
      · rintro rfl
        exact ⟨[], family.table tables, .nil, by simp [entriesOf],
          family.withTable_table tables⟩
      · rintro ⟨rows, final, paired, entries, same⟩
        cases paired
        have unchanged : final = family.table tables :=
          OrderedMap.eq_of_entries (by simpa [entriesOf] using entries)
        rw [← same, unchanged, family.withTable_table]
  | cons item rest induction =>
      obtain ⟨isNew, restDistinct⟩ := List.nodup_cons.mp distinct
      have itemFresh := fresh item List.mem_cons_self
      have restFresh (stored : R) : ∀ other ∈ rest,
          (family.table
            (family.withTable tables
              ((family.table tables).set (family.key item) stored))).get?
            (family.key other) = none := by
        intro other member
        have different : family.key item ≠ family.key other :=
          fun same => isNew (same ▸ List.mem_map_of_mem member)
        rw [family.table_withTable, OrderedMap.get?_set_other _ _ different]
        exact fresh other (List.mem_cons_of_mem _ member)
      rw [List.foldlM_cons, Outcome.bind_ok]
      constructor
      · rintro ⟨middle, putOne, putRest⟩
        obtain ⟨stored, stores, rfl⟩ := (put_ok itemFresh).mp putOne
        obtain ⟨rows, final, paired, entries, same⟩ :=
          (induction restDistinct (restFresh stored)).mp putRest
        refine ⟨stored :: rows, final, .cons stores ?_, ?_, ?_⟩
        · exact paired.imp fun _ _ => stores_withTable.mp
        · rw [entries, family.table_withTable, OrderedMap.entries_set_fresh itemFresh]
          simp [entriesOf]
        · rw [← same, family.withTable_withTable]
      · rintro ⟨rows, final, paired, entries, same⟩
        cases paired with
        | @cons _ stored _ rows stores restStores =>
            refine ⟨_, (put_ok itemFresh).mpr ⟨stored, stores, rfl⟩, ?_⟩
            apply (induction restDistinct (restFresh stored)).mpr
            refine ⟨rows, final, ?_, ?_, ?_⟩
            · exact restStores.imp fun _ _ => stores_withTable.mpr
            · rw [entries, family.table_withTable,
                OrderedMap.entries_set_fresh itemFresh]
              simp [entriesOf]
            · rw [family.withTable_withTable, same]

def Holds (family : Family β R) (tables : Tables) (items : List β)
    (rows : OrderedMap String R) : Prop :=
  ∀ key stored, rows.get? key = some stored ↔
    ∃ item ∈ items, family.key item = key ∧ family.row tables item = .ok stored

variable {rows : List R}

theorem mem_entriesOf (paired : List.Forall₂ (family.Stores tables) items rows) {key : String}
    {stored : R} :
    (key, stored) ∈ family.entriesOf items rows ↔
      ∃ item ∈ items, family.key item = key ∧ family.row tables item = .ok stored := by
  induction paired with
  | nil => simp [entriesOf]
  | @cons item row items rows stores _ induction =>
      have here : ((key, stored) = (family.key item, row)) ↔
          family.key item = key ∧ family.row tables item = .ok stored := by
        rw [stores.1]
        simp only [Prod.mk.injEq, Except.ok.injEq]
        exact and_congr eq_comm eq_comm
      have unfolded :
          family.entriesOf (item :: items) (row :: rows) =
            (family.key item, row) :: family.entriesOf items rows := rfl
      rw [unfolded, List.mem_cons, here, induction]
      simp

theorem keys_entriesOf (paired : List.Forall₂ (family.Stores tables) items rows) :
    (family.entriesOf items rows).map Prod.fst = items.map family.key := by
  induction paired with
  | nil => rfl
  | cons _ _ induction => simpa [entriesOf] using induction

/-- Resources come back as they were put exactly when each row gives its own
resource back. -/
theorem resources_entriesOf (paired : List.Forall₂ (family.Stores tables) items rows) :
    (family.entriesOf items rows).map
        (fun entry => family.resource entry.1 entry.2) = items ↔
      List.Forall₂
        (fun item stored => family.resource (family.key item) stored = item) items rows := by
  induction paired with
  | nil => simp [entriesOf]
  | cons _ _ induction =>
      rw [List.forall₂_cons, ← induction]
      simp [entriesOf]

theorem inOrder_of_ascending {table : OrderedMap String R}
    (ascending : Ascending collation (table.entries.map Prod.fst)) :
    collation.inOrder table = table.entries :=
  List.mergeSort_of_pairwise
    ((List.pairwise_map.mp ascending).imp fun ordered => ordered.1)

theorem ascending_of_read {table : OrderedMap String R}
    (read : resourcesOf collation family.resource table = items) :
    Ascending collation (items.map family.key) := by
  subst read
  have keys :
      (resourcesOf collation family.resource table).map family.key =
        (collation.inOrder table).map Prod.fst := by
    simp [resourcesOf, family.key_resource]
  rw [keys]
  have sorted : ((collation.inOrder table).map Prod.fst).Pairwise
      fun left right => collation.le left right = true :=
    List.pairwise_map.mpr <| List.pairwise_mergeSort
      (fun first second third => collation.trans first.1 second.1 third.1)
      (fun first second => collation.total first.1 second.1) table.entries
  have distinct : ((collation.inOrder table).map Prod.fst).Nodup :=
    ((List.mergeSort_perm _ _).map Prod.fst).nodup_iff.mpr table.distinct
  exact sorted.and distinct

/-- What a successful put of sorted resources followed by a faithful reading
says about each resource. -/
theorem keeps_of_read (empty : family.table tables = OrderedMap.empty)
    (succeeded : items.foldlM family.put tables = .ok after)
    (read : resourcesOf collation family.resource (family.table after) = items) :
    (∀ item ∈ items, family.Keeps tables item) ∧
      family.Holds tables items (family.table after) := by
  have ascending := ascending_of_read read
  obtain ⟨rows, final, paired, entries, rfl⟩ :=
    (putAll_ok ascending.nodup (by simp [empty])).mp succeeded
  rw [family.table_withTable] at read ⊢
  rw [empty] at entries
  replace entries : final.entries = family.entriesOf items rows := entries
  have keys : final.entries.map Prod.fst = items.map family.key :=
    entries ▸ keys_entriesOf paired
  rw [resourcesOf, inOrder_of_ascending (keys ▸ ascending), entries,
    resources_entriesOf paired] at read
  constructor
  · intro item member
    obtain ⟨index, bound, rfl⟩ := List.mem_iff_getElem.mp member
    have within : index < rows.length := paired.length_eq ▸ bound
    exact ⟨rows[index], List.forall₂_iff_get.mp paired |>.2 index bound within,
      List.forall₂_iff_get.mp read |>.2 index bound within⟩
  · intro key stored
    rw [← OrderedMap.mem_entries_iff, entries, mem_entriesOf paired]

theorem read_of_keeps (empty : family.table tables = OrderedMap.empty)
    (ascending : Ascending collation (items.map family.key))
    (keeps : ∀ item ∈ items, family.Keeps tables item) :
    ∃ final, items.foldlM family.put tables = .ok (family.withTable tables final) ∧
      resourcesOf collation family.resource final = items ∧
        family.Holds tables items final := by
  have choose : ∃ rows, List.Forall₂
      (fun item stored => family.Stores tables item stored ∧
        family.resource (family.key item) stored = item) items rows := by
    clear ascending
    induction items with
    | nil => exact ⟨[], .nil⟩
    | cons item rest induction =>
        obtain ⟨stored, kept⟩ := keeps item List.mem_cons_self
        obtain ⟨rows, paired⟩ :=
          induction fun other member => keeps other (List.mem_cons_of_mem _ member)
        exact ⟨stored :: rows, .cons kept paired⟩
  obtain ⟨rows, both⟩ := choose
  have paired := both.imp fun _ _ kept => kept.1
  have faithful := both.imp fun _ _ kept => kept.2
  have distinct :
      ((family.entriesOf items rows).map Prod.fst).Nodup :=
    keys_entriesOf paired ▸ ascending.nodup
  let final : OrderedMap String R :=
    { entries := family.entriesOf items rows
      distinct := distinct }
  refine ⟨final, ?_, ?_, ?_⟩
  · apply (putAll_ok ascending.nodup (by simp [empty])).mpr
    exact ⟨rows, final, paired, by simp [final, empty, OrderedMap.empty], rfl⟩
  · have keys : final.entries.map Prod.fst = items.map family.key := keys_entriesOf paired
    rw [resourcesOf, inOrder_of_ascending (keys ▸ ascending)]
    exact (resources_entriesOf paired).mpr faithful
  · intro key stored
    rw [← OrderedMap.mem_entries_iff]
    exact mem_entriesOf paired

end Family

end Store

end Barycenter
