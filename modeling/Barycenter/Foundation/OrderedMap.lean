import Mathlib.Data.List.Nodup

/-!
# Insertion-ordered finite maps

A record used as a dictionary keeps its keys in the order of their first
insertion: overwriting keeps the position, deleting forgets it.  The order is
observable, because programs that bound the size of such a record drop the
oldest keys first.  No key occurs twice, so an entry is the same thing as a
successful lookup.
-/

namespace Barycenter

/-- A dictionary with finitely many keys, oldest first. -/
structure OrderedMap (κ α : Type) where
  entries : List (κ × α)
  distinct : (entries.map Prod.fst).Nodup
deriving DecidableEq, Repr

namespace OrderedMap

variable {κ α : Type} [DecidableEq κ]

def lookup : List (κ × α) → κ → Option α
  | [], _ => none
  | (stored, value) :: rest, wanted =>
      if stored = wanted then some value else lookup rest wanted

def overwrite : List (κ × α) → κ → α → List (κ × α)
  | [], key, value => [(key, value)]
  | (stored, old) :: rest, key, value =>
      if stored = key then (key, value) :: rest
      else (stored, old) :: overwrite rest key value

variable {key : κ} {entries : List (κ × α)} {value : α}

private theorem mem_keys_overwrite
    {other : κ}
    (member : other ∈ (overwrite entries key value).map Prod.fst) :
    other = key ∨ other ∈ entries.map Prod.fst := by
  induction entries with
  | nil => simpa [overwrite] using member
  | cons entry rest induction =>
      obtain ⟨stored, old⟩ := entry
      by_cases same : stored = key
      · simp only [overwrite, if_pos same, List.map_cons, List.mem_cons] at member
        rcases member with here | later
        · exact .inl here
        · exact .inr (List.mem_cons_of_mem _ later)
      · simp only [overwrite, if_neg same, List.map_cons, List.mem_cons] at member
        rcases member with here | later
        · exact .inr (by simp [here])
        · exact (induction later).imp id (List.mem_cons_of_mem _)

private theorem overwrite_distinct
    (distinct : (entries.map Prod.fst).Nodup)
    (key : κ) (value : α) :
    ((overwrite entries key value).map Prod.fst).Nodup := by
  induction entries with
  | nil => simp [overwrite]
  | cons entry rest induction =>
      obtain ⟨stored, old⟩ := entry
      have fresh := (List.nodup_cons.mp distinct).1
      have restDistinct := (List.nodup_cons.mp distinct).2
      by_cases same : stored = key
      · subst same
        simpa [overwrite] using And.intro fresh restDistinct
      · simp only [overwrite, if_neg same, List.map_cons, List.nodup_cons]
        refine ⟨?_, induction restDistinct⟩
        intro member
        rcases mem_keys_overwrite member with isKey | stale
        · exact same isKey
        · exact fresh stale

def empty : OrderedMap κ α :=
  { entries := []
    distinct := List.nodup_nil }

def get? (map : OrderedMap κ α) (key : κ) : Option α :=
  lookup map.entries key

def set (map : OrderedMap κ α) (key : κ) (value : α) : OrderedMap κ α :=
  { entries := overwrite map.entries key value
    distinct := overwrite_distinct map.distinct key value }

/-- Drop every key that satisfies `doomed`, keeping the others in order. -/
def without (map : OrderedMap κ α) (doomed : κ → Bool) : OrderedMap κ α :=
  { entries := map.entries.filter fun entry => !doomed entry.1
    distinct := (List.filter_sublist.map Prod.fst).nodup map.distinct }

def filterValues (map : OrderedMap κ α) (kept : α → Bool) : OrderedMap κ α :=
  { entries := map.entries.filter fun entry => kept entry.2
    distinct := (List.filter_sublist.map Prod.fst).nodup map.distinct }

def erase (map : OrderedMap κ α) (key : κ) : OrderedMap κ α :=
  map.without fun stored => decide (stored = key)

def keys (map : OrderedMap κ α) : List κ := map.entries.map Prod.fst

def values (map : OrderedMap κ α) : List α := map.entries.map Prod.snd

/-- The record with the given entries: a later one overwrites an earlier one of
the same key. -/
def fromEntries (entries : List (κ × α)) : OrderedMap κ α :=
  entries.foldl (fun map entry => map.set entry.1 entry.2) empty

def mapValues {β : Type} (map : OrderedMap κ α) (change : α → β) : OrderedMap κ β :=
  { entries := map.entries.map fun entry => (entry.1, change entry.2)
    distinct := by
      have keysKept :
          (map.entries.map fun entry => (entry.1, change entry.2)).map Prod.fst =
            map.entries.map Prod.fst := by
        simp [Function.comp_def]
      exact keysKept ▸ map.distinct }

private theorem lookup_map {β : Type}
    (entries : List (κ × α)) (change : α → β) (wanted : κ) :
    lookup (entries.map fun entry => (entry.1, change entry.2)) wanted =
      (lookup entries wanted).map change := by
  induction entries with
  | nil => rfl
  | cons entry rest induction =>
      obtain ⟨stored, value⟩ := entry
      by_cases hit : stored = wanted
      · simp [lookup, hit]
      · simp [lookup, hit, induction]

private theorem lookup_overwrite
    (entries : List (κ × α)) (key wanted : κ) (value : α) :
    lookup (overwrite entries key value) wanted =
      if key = wanted then some value else lookup entries wanted := by
  induction entries with
  | nil => simp [overwrite, lookup]
  | cons entry rest induction =>
      obtain ⟨stored, old⟩ := entry
      by_cases same : stored = key
      · subst same
        by_cases hit : stored = wanted <;> simp [overwrite, lookup, hit]
      · by_cases hit : stored = wanted
        · subst hit
          have missed : key ≠ stored := Ne.symm same
          simp [overwrite, lookup, same, missed]
        · simp [overwrite, lookup, same, hit, induction]

private theorem lookup_filter
    (entries : List (κ × α)) (doomed : κ → Bool) (wanted : κ) :
    lookup (entries.filter fun entry => !doomed entry.1) wanted =
      if doomed wanted then none else lookup entries wanted := by
  induction entries with
  | nil => simp [lookup]
  | cons entry rest induction =>
      obtain ⟨stored, old⟩ := entry
      by_cases dropped : doomed stored
      · by_cases hit : stored = wanted
        · subst hit
          simp [dropped, induction]
        · simp [lookup, dropped, hit, induction]
      · by_cases hit : stored = wanted
        · subst hit
          simp [lookup, dropped]
        · simp [lookup, dropped, hit, induction]

@[simp] theorem get?_empty (key : κ) :
    (empty : OrderedMap κ α).get? key = none := rfl

theorem get?_set (map : OrderedMap κ α) (key wanted : κ) (value : α) :
    (map.set key value).get? wanted =
      if key = wanted then some value else map.get? wanted :=
  lookup_overwrite map.entries key wanted value

@[simp] theorem get?_set_same (map : OrderedMap κ α) (key : κ) (value : α) :
    (map.set key value).get? key = some value := by
  simp [get?_set]

@[simp]
theorem get?_mapValues {β : Type}
    (map : OrderedMap κ α) (change : α → β) (wanted : κ) :
    (map.mapValues change).get? wanted = (map.get? wanted).map change :=
  lookup_map map.entries change wanted

theorem get?_set_other (map : OrderedMap κ α) {wanted : κ} (value : α)
    (different : key ≠ wanted) :
    (map.set key value).get? wanted = map.get? wanted := by
  simp [get?_set, different]

@[simp] theorem get?_without
    (map : OrderedMap κ α) (doomed : κ → Bool) (wanted : κ) :
    (map.without doomed).get? wanted =
      if doomed wanted then none else map.get? wanted :=
  lookup_filter map.entries doomed wanted

theorem get?_erase (map : OrderedMap κ α) (key wanted : κ) :
    (map.erase key).get? wanted =
      if wanted = key then none else map.get? wanted := by
  simp [erase]

@[simp] theorem get?_erase_same (map : OrderedMap κ α) (key : κ) :
    (map.erase key).get? key = none := by
  simp [get?_erase]

private theorem lookup_of_mem
    (distinct : (entries.map Prod.fst).Nodup)
    (member : (key, value) ∈ entries) :
    lookup entries key = some value := by
  induction entries with
  | nil => simp at member
  | cons entry rest induction =>
      obtain ⟨stored, old⟩ := entry
      have fresh := (List.nodup_cons.mp distinct).1
      have restDistinct := (List.nodup_cons.mp distinct).2
      rcases List.mem_cons.mp member with here | later
      · simp only [Prod.mk.injEq] at here
        simp [lookup, here.1, here.2]
      · have missed : stored ≠ key := by
          rintro rfl
          exact fresh (List.mem_map.mpr ⟨(stored, value), later, rfl⟩)
        simpa [lookup, missed] using induction restDistinct later

private theorem mem_of_lookup
    (found : lookup entries key = some value) : (key, value) ∈ entries := by
  induction entries with
  | nil => simp [lookup] at found
  | cons entry rest induction =>
      obtain ⟨stored, old⟩ := entry
      by_cases hit : stored = key
      · simp only [lookup, if_pos hit, Option.some.injEq] at found
        simp [hit, found]
      · simp only [lookup, if_neg hit] at found
        exact List.mem_cons_of_mem _ (induction found)

variable {map : OrderedMap κ α}

theorem mem_entries_iff :
    (key, value) ∈ map.entries ↔ map.get? key = some value :=
  ⟨lookup_of_mem map.distinct, mem_of_lookup⟩

theorem mem_values_iff :
    value ∈ map.values ↔ ∃ key, map.get? key = some value := by
  simp [values, mem_entries_iff]

theorem mem_keys_iff :
    key ∈ map.keys ↔ ∃ value, map.get? key = some value := by
  simp [keys, mem_entries_iff]

theorem get?_filterValues (map : OrderedMap κ α) (kept : α → Bool) (key : κ) :
    (map.filterValues kept).get? key = (map.get? key).filter kept := by
  apply Option.ext
  intro value
  rw [← mem_entries_iff, Option.filter_eq_some_iff, ← mem_entries_iff]
  simp [filterValues]

private theorem overwrite_fresh (value : α)
    (fresh : key ∉ entries.map Prod.fst) :
    overwrite entries key value = entries ++ [(key, value)] := by
  induction entries with
  | nil => rfl
  | cons entry rest induction =>
      obtain ⟨stored, old⟩ := entry
      simp only [List.map_cons, List.mem_cons, not_or] at fresh
      simp [overwrite, Ne.symm fresh.1, induction fresh.2]

private theorem foldl_set_entries (entries : List (κ × α)) (map : OrderedMap κ α)
    (distinct : ((map.entries ++ entries).map Prod.fst).Nodup) :
    (entries.foldl (fun map entry => map.set entry.1 entry.2) map).entries =
      map.entries ++ entries := by
  induction entries generalizing map with
  | nil => simp
  | cons entry rest induction =>
      obtain ⟨key, value⟩ := entry
      have fresh : key ∉ map.entries.map Prod.fst := by
        intro member
        rw [List.map_append, List.nodup_append] at distinct
        exact distinct.2.2 key member key (by simp) rfl
      have appended : (map.set key value).entries = map.entries ++ [(key, value)] :=
        overwrite_fresh value fresh
      rw [List.foldl_cons, induction (map.set key value) (by simpa [appended] using distinct),
        appended]
      simp

@[simp] theorem fromEntries_entries (map : OrderedMap κ α) :
    fromEntries map.entries = map := by
  have same : (fromEntries map.entries).entries = map.entries := by
    simpa [fromEntries, empty] using
      foldl_set_entries map.entries empty (by simpa [empty] using map.distinct)
  obtain ⟨entries, distinct⟩ := map
  cases built : fromEntries entries
  simp_all

end OrderedMap

end Barycenter
