import Barycenter.Control.Engine
import Barycenter.Dp.GenerationDigest
import Barycenter.Dp.KekRotation
import Barycenter.Foundation.KeyedWrites

/-!
# The facts of certificates in memory

What a certificate says of itself is read without waiting, so the store over
PostgreSQL keeps the facts of all rows in memory.  A refresh puts what its query
answered in the place of all that was known.  What this instance has put itself
stands in a second table, because the query may have been answered from before
the row was there; the refresh adds that table and empties it.  Another refresh
may then still hold an answer from before the row was there.
-/

namespace Barycenter.Dp.Secrets

open Control (parseRef)

/-! ## References -/

theorem hexDigit_hexadecimal {digit : Nat} (small : digit < 16) :
    Control.hexCharacter (Sha256.hexDigit digit) = true := by
  interval_cases digit <;> decide

theorem hexWord_hexadecimal {word : Nat} {character : Char}
    (member : character ∈ Sha256.hexWord word) : Control.hexCharacter character = true := by
  obtain ⟨byte, inWord, inByte⟩ := List.mem_flatMap.mp member
  have small := bigEndian_lt inWord
  rcases List.mem_pair.mp inByte with rfl | rfl
  · exact hexDigit_hexadecimal (by omega)
  · exact hexDigit_hexadecimal (by omega)

theorem versionOf_toList (parts : String) :
    (versionOf parts).toList.length = 32 ∧
      (versionOf parts).toList.all Control.hexCharacter = true := by
  simp only [versionOf, Sha256.hex, String.toList_ofList]
  constructor
  · simp [length_hexWord]
  · refine List.all_eq_true.mpr fun character member => ?_
    obtain ⟨word, -, inWord⟩ := List.mem_flatMap.mp (List.mem_of_mem_take member)
    exact hexWord_hexadecimal inWord

theorem refCharacter_of_assertName {name : String} (named : assertName name = true) :
    name.toList ≠ [] ∧ ∀ character ∈ name.toList, Control.refCharacter character = true := by
  obtain ⟨nonempty, characters⟩ := (Bool.and_eq_true _ _).mp named
  refine ⟨fun empty => of_decide_eq_true nonempty (String.toList_eq_nil_iff.mp empty), ?_⟩
  intro character member
  simpa [Control.refCharacter] using List.all_eq_true.mp characters character member

theorem certificateId_ref_toList (name : String) (material : CertMaterial) :
    (certificateId name material).ref.toList =
      "store://".toList ++ (name.toList ++ '@' :: (certificateId name material).version.toList) := by
  have spelled : (certificateId name material).ref =
      "store" ++ "://" ++ name ++ "@" ++ (certificateId name material).version := by
    simp [SecretId.ref, certificateId, Scheme.text, toString]
  rw [spelled]
  simp [String.toList_append]

theorem parseRef_certificateId {name : String} (named : assertName name = true)
    (material : CertMaterial) :
    parseRef (certificateId name material).ref =
      some (name, (certificateId name material).version) := by
  obtain ⟨nonempty, characters⟩ := refCharacter_of_assertName named
  obtain ⟨length, hexadecimal⟩ := versionOf_toList
    (sha256 material.fullchain ++ "|" ++ sha256 material.privkey)
  have scheme : "store://".toList.isPrefixOf (certificateId name material).ref.toList = true := by
    rw [certificateId_ref_toList, List.isPrefixOf_iff_prefix]
    exact List.prefix_append _ _
  have rest : (certificateId name material).ref.toList.drop "store://".toList.length =
      name.toList ++ '@' :: (certificateId name material).version.toList := by
    rw [certificateId_ref_toList, List.drop_left]
  have taken (later : List Char) :
      (name.toList ++ later).takeWhile Control.refCharacter =
        name.toList ++ later.takeWhile Control.refCharacter :=
    List.takeWhile_append_of_pos characters
  have dropped (later : List Char) :
      (name.toList ++ later).dropWhile Control.refCharacter =
        later.dropWhile Control.refCharacter :=
    List.dropWhile_append_of_pos characters
  simp only [parseRef, scheme, if_true, rest, taken, dropped]
  have version : (certificateId name material).version =
      versionOf (sha256 material.fullchain ++ "|" ++ sha256 material.privkey) := rfl
  rw [version]
  simp [Control.refCharacter, nonempty, length, hexadecimal]

/-! ## The store -/

inductive Refreshing (φ : Type) where
  | idle
  | asked
  /-- The query has read its snapshot and is not answered yet. -/
  | read (rows : List (String × φ))
deriving DecidableEq, Repr

inductive Putting (φ : Type) where
  | idle
  | asked (id : SecretId) (facts : φ)
  | inserted (id : SecretId) (facts : φ)
deriving DecidableEq, Repr

/-- One store and the column of facts that its database has. -/
structure FactsCache (ι φ : Type) where
  table : OrderedMap SecretId (Option φ)
  facts : OrderedMap String φ
  mine : OrderedMap String φ
  refreshes : ι → Refreshing φ
  puts : ι → Putting φ
  /-- The references that puts have returned, which nothing reads. -/
  returned : List String

inductive CacheDeed (ι φ : Type) where
  | refresh (call : ι)
  | snapshot (call : ι)
  | refreshed (call : ι)
  | refreshFailed (call : ι)
  | put (call : ι) (now : Nat) (name : String) (material : CertMaterial)
  | inserted (call : ι)
  | returned (call : ι)
  | putFailed (call : ι)
  /-- Another instance writes a row, or a row of a key is written. -/
  | elsewhere (id : SecretId) (facts : Option φ)
deriving DecidableEq, Repr

/-- The rows of certificates that have facts, under their references. -/
def selectFacts {φ : Type} (table : OrderedMap SecretId (Option φ)) : List (String × φ) :=
  table.entries.filterMap fun (id, facts) =>
    if id.scheme = .store then facts.map (id.ref, ·) else none

section

variable {ι φ : Type}

def FactsCache.start (table : OrderedMap SecretId (Option φ)) : FactsCache ι φ :=
  { table := table, facts := .empty, mine := .empty, refreshes := fun _ => .idle,
    puts := fun _ => .idle, returned := [] }

/-- `facts`. -/
def FactsCache.factsOf (cache : FactsCache ι φ) (ref : String) : Option φ :=
  match parseRef ref with
  | none => none
  | some _ => cache.facts.get? ref

variable [DecidableEq ι]

def FactsCache.setRefresh (cache : FactsCache ι φ) (call : ι) (stage : Refreshing φ) :
    FactsCache ι φ :=
  { cache with refreshes := Function.update cache.refreshes call stage }

def FactsCache.setPut (cache : FactsCache ι φ) (call : ι) (stage : Putting φ) :
    FactsCache ι φ :=
  { cache with puts := Function.update cache.puts call stage }

/-- What `refreshFacts` does with the rows of its query. -/
def FactsCache.reload (cache : FactsCache ι φ) (rows : List (String × φ)) : FactsCache ι φ :=
  { cache with
    facts := (OrderedMap.empty.written rows).written cache.mine.entries
    mine := .empty }

/-- What `put` does once its row is there. -/
def FactsCache.remember (cache : FactsCache ι φ) (ref : String) (facts : φ) : FactsCache ι φ :=
  { cache with
    facts := cache.facts.set ref facts
    mine := cache.mine.set ref facts
    returned := ref :: cache.returned }

variable (inspectMaterial : Nat → CertMaterial → Option φ)

/-- One turn of a call, or of its query in the database. -/
def FactsCache.act (cache : FactsCache ι φ) : CacheDeed ι φ → Option (FactsCache ι φ)
  | .refresh call =>
      match cache.refreshes call with
      | .idle => some (cache.setRefresh call .asked)
      | _ => none
  | .snapshot call =>
      match cache.refreshes call with
      | .asked => some (cache.setRefresh call (.read (selectFacts cache.table)))
      | _ => none
  | .refreshed call =>
      match cache.refreshes call with
      | .read rows => some ((cache.reload rows).setRefresh call .idle)
      | _ => none
  | .refreshFailed call =>
      match cache.refreshes call with
      | .idle => none
      | _ => some (cache.setRefresh call .idle)
  | .put call now name material =>
      match cache.puts call with
      | .idle =>
          if assertName name then
            match inspectMaterial now material with
            | some facts => some (cache.setPut call (.asked (certificateId name material) facts))
            | none => some cache
          else some cache
      | _ => none
  | .inserted call =>
      match cache.puts call with
      | .asked id facts =>
          some ({ cache with table := cache.table.set id (some facts) }.setPut call
            (.inserted id facts))
      | _ => none
  | .returned call =>
      match cache.puts call with
      | .inserted id facts => some ((cache.remember id.ref facts).setPut call .idle)
      | _ => none
  | .putFailed call =>
      match cache.puts call with
      | .idle => none
      | _ => some (cache.setPut call .idle)
  | .elsewhere id facts =>
      if id.scheme = .store ∧ facts.isNone then none
      else some { cache with table := cache.table.set id facts }

def CacheActs (before : FactsCache ι φ) (deed : CacheDeed ι φ) (after : FactsCache ι φ) : Prop :=
  before.act inspectMaterial deed = some after

/-! ## What is claimed -/

/-- The facts of every reference that a put has returned are known. -/
def FactsCache.Remembers (cache : FactsCache ι φ) : Prop :=
  ∀ ref ∈ cache.returned, (cache.factsOf ref).isSome

/-- When a refresh empties the second table, every other refresh that has read its
snapshot has found there what the table holds. -/
def EmptiesSettled (event : Event (FactsCache ι φ) (CacheDeed ι φ)) : Prop :=
  ∀ call other rows, event.label = .refreshed call → other ≠ call →
    event.before.refreshes other = .read rows →
    ∀ ref ∈ event.before.mine.keys, ref ∈ rows.map Prod.fst

/-! ## What the table holds -/

variable {inspectMaterial : Nat → CertMaterial → Option φ}
  {cache after : FactsCache ι φ} {call : ι} {id : SecretId} {facts : φ}

variable {ref : String} {table : OrderedMap SecretId (Option φ)}

omit [DecidableEq ι] in
theorem mem_selectFacts :
    ref ∈ (selectFacts table).map Prod.fst ↔
      ∃ id facts, table.get? id = some (some facts) ∧ id.scheme = .store ∧ id.ref = ref := by
  simp only [selectFacts, List.mem_map, List.mem_filterMap, Prod.exists,
    OrderedMap.mem_entries_iff]
  constructor
  · rintro ⟨_, value, ⟨id, facts, found, selected⟩, rfl⟩
    split at selected
    · rename_i store
      obtain ⟨inner, rfl, pair⟩ := Option.map_eq_some_iff.mp selected
      cases pair
      exact ⟨id, value, found, store, rfl⟩
    · cases selected
  · rintro ⟨id, facts, found, store, rfl⟩
    exact ⟨id.ref, facts, ⟨id, some facts, found, by simp [store]⟩, rfl⟩

omit [DecidableEq ι] in
theorem selectFacts_set {written : Option φ} (valued : id.scheme = .store → written.isSome)
    (member : ref ∈ (selectFacts table).map Prod.fst) :
    ref ∈ (selectFacts (table.set id written)).map Prod.fst := by
  obtain ⟨other, facts, found, store, named⟩ := mem_selectFacts.mp member
  refine mem_selectFacts.mpr ?_
  by_cases same : id = other
  · subst same
    obtain ⟨new, is⟩ := Option.isSome_iff_exists.mp (valued store)
    exact ⟨id, new, by rw [OrderedMap.get?_set_same, is], store, named⟩
  · exact ⟨other, facts, by rw [OrderedMap.get?_set_other _ _ same, found], store, named⟩

/-! ## Puts -/

/-- A put that waits has the reference of a certificate, an inserted one has its
row, and the second table holds only what puts have returned. -/
structure FactsCache.Putted (cache : FactsCache ι φ) : Prop where
  certificate : ∀ call id facts,
    cache.puts call = .asked id facts ∨ cache.puts call = .inserted id facts →
      id.scheme = .store ∧ (parseRef id.ref).isSome
  there : ∀ call id facts, cache.puts call = .inserted id facts →
    id.ref ∈ (selectFacts cache.table).map Prod.fst
  own : ∀ ref ∈ cache.mine.keys, ref ∈ cache.returned
  shaped : ∀ ref ∈ cache.returned, (parseRef ref).isSome

theorem FactsCache.Putted.setPut {stage : Putting φ} (putted : cache.Putted)
    (certificate : ∀ id facts, stage = .asked id facts ∨ stage = .inserted id facts →
      id.scheme = .store ∧ (parseRef id.ref).isSome)
    (there : ∀ id facts, stage = .inserted id facts →
      id.ref ∈ (selectFacts cache.table).map Prod.fst) :
    (cache.setPut call stage).Putted := by
  refine ⟨fun other id facts is => ?_, fun other id facts is => ?_, putted.own, putted.shaped⟩
  · by_cases same : other = call
    · subst same
      exact certificate id facts (by simpa [FactsCache.setPut] using is)
    · exact putted.certificate other id facts (by simpa [FactsCache.setPut, same] using is)
  · by_cases same : other = call
    · subst same
      exact there id facts (by simpa [FactsCache.setPut] using is)
    · exact putted.there other id facts (by simpa [FactsCache.setPut, same] using is)

omit [DecidableEq ι] in
theorem FactsCache.Putted.setTable
    (putted : cache.Putted) (kept : ∀ ref ∈ (selectFacts cache.table).map Prod.fst,
      ref ∈ (selectFacts table).map Prod.fst) :
    ({ cache with table := table } : FactsCache ι φ).Putted :=
  ⟨putted.certificate, fun call id facts is => kept _ (putted.there call id facts is), putted.own,
    putted.shaped⟩

omit [DecidableEq ι] in
theorem FactsCache.Putted.remember (putted : cache.Putted)
    (shaped : (parseRef ref).isSome) : (cache.remember ref facts).Putted := by
  refine ⟨putted.certificate, putted.there, fun other member => ?_, fun other member => ?_⟩
  · rcases OrderedMap.mem_keys_set.mp member with rfl | old
    · exact List.mem_cons_self
    · exact List.mem_cons_of_mem _ (putted.own other old)
  · rcases List.mem_cons.mp member with rfl | old
    · exact shaped
    · exact putted.shaped other old

theorem putted_act {deed : CacheDeed ι φ} (acted : cache.act inspectMaterial deed = some after)
    (putted : cache.Putted) : after.Putted := by
  cases deed with simp only [FactsCache.act] at acted
  | refresh call | snapshot call =>
      split at acted
      · cases acted
        exact ⟨putted.certificate, putted.there, putted.own, putted.shaped⟩
      · cases acted
  | refreshed call =>
      split at acted
      · cases acted
        refine ⟨putted.certificate, putted.there, ?_, putted.shaped⟩
        intro ref member
        cases member
      · cases acted
  | refreshFailed call =>
      split at acted
      · cases acted
      · cases acted
        exact ⟨putted.certificate, putted.there, putted.own, putted.shaped⟩
  | put call now name material =>
      split at acted
      · split at acted
        · rename_i named
          split at acted
          · cases acted
            refine putted.setPut ?_ ?_
            · rintro id facts (is | is)
              · cases is
                exact ⟨rfl, by rw [parseRef_certificateId named]; rfl⟩
              · cases is
            · intro id facts is
              cases is
          · cases acted
            exact putted
        · cases acted
          exact putted
      · cases acted
  | inserted call =>
      split at acted
      · rename_i id facts asked
        cases acted
        have certificate := putted.certificate call id facts (.inl asked)
        have kept : ∀ ref ∈ (selectFacts cache.table).map Prod.fst,
            ref ∈ (selectFacts (cache.table.set id (some facts))).map Prod.fst :=
          fun ref member => selectFacts_set (fun _ => rfl) member
        have here : id.ref ∈ (selectFacts (cache.table.set id (some facts))).map Prod.fst :=
          mem_selectFacts.mpr ⟨id, facts, OrderedMap.get?_set_same .., certificate.1, rfl⟩
        refine (putted.setTable kept).setPut ?_ ?_
        · rintro other value (is | is)
          · cases is
          · cases is
            exact certificate
        · intro other value is
          cases is
          exact here
      · cases acted
  | returned call =>
      split at acted
      · rename_i id facts inserted
        cases acted
        have certificate := putted.certificate call id facts (.inr inserted)
        refine (putted.remember certificate.2).setPut ?_ ?_
        · rintro other value (is | is) <;> cases is
        · intro other value is
          cases is
      · cases acted
  | putFailed call =>
      split at acted
      · cases acted
      · cases acted
        refine putted.setPut ?_ ?_
        · rintro other value (is | is) <;> cases is
        · intro other value is
          cases is
  | elsewhere id facts =>
      split at acted
      · cases acted
      · rename_i valued
        cases acted
        exact putted.setTable fun ref member =>
          selectFacts_set
            (fun store => Option.isSome_iff_ne_none.mpr (by simpa [store] using valued)) member

/-! ## References that stay known -/

/-- What puts have returned is known and stored, and every answer that is still to
come has it or the second table does. -/
structure FactsCache.Kept (cache : FactsCache ι φ) : Prop where
  known : ∀ ref ∈ cache.returned, ref ∈ cache.facts.keys
  stored : ∀ ref ∈ cache.returned, ref ∈ (selectFacts cache.table).map Prod.fst
  covered : ∀ call rows, cache.refreshes call = .read rows → ∀ ref ∈ cache.returned,
    ref ∈ rows.map Prod.fst ∨ ref ∈ cache.mine.keys

theorem FactsCache.Kept.setRefresh {stage : Refreshing φ} (kept : cache.Kept)
    (covered : ∀ rows, stage = .read rows → ∀ ref ∈ cache.returned,
      ref ∈ rows.map Prod.fst ∨ ref ∈ cache.mine.keys) :
    (cache.setRefresh call stage).Kept := by
  refine ⟨kept.known, kept.stored, fun other rows is => ?_⟩
  by_cases same : other = call
  · subst same
    exact covered rows (by simpa [FactsCache.setRefresh] using is)
  · exact kept.covered other rows (by simpa [FactsCache.setRefresh, same] using is)

omit [DecidableEq ι] in
theorem FactsCache.Kept.setTable (kept : cache.Kept)
    (stored : ∀ ref ∈ (selectFacts cache.table).map Prod.fst,
      ref ∈ (selectFacts table).map Prod.fst) :
    ({ cache with table := table } : FactsCache ι φ).Kept :=
  ⟨kept.known, fun ref member => stored ref (kept.stored ref member), kept.covered⟩

omit [DecidableEq ι] in
theorem FactsCache.Kept.remember (kept : cache.Kept)
    (stored : ref ∈ (selectFacts cache.table).map Prod.fst) :
    (cache.remember ref facts).Kept := by
  refine ⟨fun other member => ?_, fun other member => ?_, fun call rows is other member => ?_⟩
  · refine OrderedMap.mem_keys_set.mpr ?_
    exact (List.mem_cons.mp member).imp id (kept.known other)
  · rcases List.mem_cons.mp member with rfl | old
    · exact stored
    · exact kept.stored other old
  · rcases List.mem_cons.mp member with rfl | old
    · exact .inr (OrderedMap.mem_keys_set.mpr (.inl rfl))
    · exact (kept.covered call rows is other old).imp id
        fun mine => OrderedMap.mem_keys_set.mpr (.inr mine)

omit [DecidableEq ι] in
theorem mem_keys_reload {rows : List (String × φ)} :
    ref ∈ (cache.reload rows).facts.keys ↔ ref ∈ rows.map Prod.fst ∨ ref ∈ cache.mine.keys := by
  simp only [FactsCache.reload, OrderedMap.mem_keys_written]
  rw [or_assoc, or_iff_right (by rintro ⟨⟩)]
  rfl

theorem FactsCache.Kept.refreshed {rows : List (String × φ)} (kept : cache.Kept)
    (here : cache.refreshes call = .read rows)
    (settled : ∀ other rows, other ≠ call → cache.refreshes other = .read rows →
      ∀ ref ∈ cache.mine.keys, ref ∈ rows.map Prod.fst) :
    ((cache.reload rows).setRefresh call .idle).Kept := by
  refine ⟨fun ref member => ?_, kept.stored, fun other found is ref member => ?_⟩
  · exact mem_keys_reload.mpr (kept.covered call rows here ref member)
  · by_cases same : other = call
    · subst same
      simp [FactsCache.setRefresh] at is
    · have before : cache.refreshes other = .read found := by
        simpa [FactsCache.setRefresh, FactsCache.reload, same] using is
      rcases kept.covered other found before ref member with there | mine
      · exact .inl there
      · exact .inl (settled other found same before ref mine)

theorem kept_act {deed : CacheDeed ι φ} (acted : cache.act inspectMaterial deed = some after)
    (settled : EmptiesSettled ⟨cache, deed, after⟩) (putted : cache.Putted) (kept : cache.Kept) :
    after.Kept := by
  cases deed with simp only [FactsCache.act] at acted
  | refresh call =>
      split at acted
      · cases acted
        refine kept.setRefresh fun rows is => ?_
        cases is
      · cases acted
  | snapshot call =>
      split at acted
      · cases acted
        refine kept.setRefresh fun rows is ref member => ?_
        cases is
        exact .inl (kept.stored ref member)
      · cases acted
  | refreshed call =>
      split at acted
      · rename_i rows here
        cases acted
        exact kept.refreshed here fun other found => settled call other found rfl
      · cases acted
  | refreshFailed call =>
      split at acted
      · cases acted
      · cases acted
        refine kept.setRefresh fun rows is => ?_
        cases is
  | put call now name material =>
      split at acted
      · split at acted
        · split at acted
          · cases acted
            exact ⟨kept.known, kept.stored, kept.covered⟩
          · cases acted
            exact kept
        · cases acted
          exact kept
      · cases acted
  | inserted call =>
      split at acted
      · rename_i id facts asked
        cases acted
        have stored : ∀ ref ∈ (selectFacts cache.table).map Prod.fst,
            ref ∈ (selectFacts (cache.table.set id (some facts))).map Prod.fst :=
          fun ref member => selectFacts_set (fun _ => rfl) member
        have written := kept.setTable stored
        exact ⟨written.known, written.stored, written.covered⟩
      · cases acted
  | returned call =>
      split at acted
      · rename_i id facts inserted
        cases acted
        have remembered : (cache.remember id.ref facts).Kept :=
          kept.remember (putted.there call id facts inserted)
        exact ⟨remembered.known, remembered.stored, remembered.covered⟩
      · cases acted
  | putFailed call =>
      split at acted
      · cases acted
      · cases acted
        exact ⟨kept.known, kept.stored, kept.covered⟩
  | elsewhere id facts =>
      split at acted
      · cases acted
      · rename_i valued
        cases acted
        exact kept.setTable fun ref member =>
          selectFacts_set
            (fun store => Option.isSome_iff_ne_none.mpr (by simpa [store] using valued)) member

/-! ## Runs -/

omit [DecidableEq ι] in
theorem factsOf_isSome :
    (cache.factsOf ref).isSome ↔ (parseRef ref).isSome ∧ ref ∈ cache.facts.keys := by
  rw [OrderedMap.mem_keys_iff, ← Option.isSome_iff_exists]
  cases parsed : parseRef ref with
  | none | some pair => simp [FactsCache.factsOf, parsed]

omit [DecidableEq ι] in
theorem FactsCache.Kept.remembers (kept : cache.Kept) (putted : cache.Putted) :
    cache.Remembers :=
  fun ref member => factsOf_isSome.mpr ⟨putted.shaped ref member, kept.known ref member⟩

theorem FactsCache.Putted.forgets (putted : cache.Putted)
    (acted : cache.act inspectMaterial (.refreshed call) = some after)
    (unsettled : ¬ EmptiesSettled ⟨cache, .refreshed call, after⟩) :
    ∃ other forgotten, after.act inspectMaterial (.refreshed other) = some forgotten ∧
      ¬ forgotten.Remembers := by
  unfold EmptiesSettled at unsettled
  push Not at unsettled
  obtain ⟨named, other, rows, same, different, here, ref, mine, absent⟩ := unsettled
  cases same
  simp only [FactsCache.act] at acted
  split at acted
  · rename_i answered _
    cases acted
    have waiting : ((cache.reload answered).setRefresh call .idle).refreshes other =
        .read rows := by
      simpa [FactsCache.setRefresh, FactsCache.reload, different] using here
    refine ⟨other, (((cache.reload answered).setRefresh call .idle).reload rows).setRefresh other
      .idle, by simp only [FactsCache.act, waiting], fun remembers => ?_⟩
    have known := (factsOf_isSome.mp (remembers ref (putted.own ref mine))).2
    rcases mem_keys_reload.mp known with there | emptied
    · exact absent there
    · cases emptied
  · cases acted

omit [DecidableEq ι] in
theorem putted_start (table : OrderedMap SecretId (Option φ)) :
    (FactsCache.start table : FactsCache ι φ).Putted := by
  constructor <;> simp [FactsCache.start, OrderedMap.keys, OrderedMap.empty]

omit [DecidableEq ι] in
theorem kept_start (table : OrderedMap SecretId (Option φ)) :
    (FactsCache.start table : FactsCache ι φ).Kept := by
  constructor <;> simp [FactsCache.start]

/-- While every refresh that empties the second table leaves no other one behind,
no put is forgotten; where one is left behind, its answer forgets a put. -/
theorem own_puts_remembered {table : OrderedMap SecretId (Option φ)}
    {history : List (Event (FactsCache ι φ) (CacheDeed ι φ))} {final : FactsCache ι φ}
    (run : Follows (CacheActs inspectMaterial) (.start table) history final) :
    ((∀ event ∈ history, EmptiesSettled event) → final.Remembers) ∧
      ∀ call after, final.act inspectMaterial (.refreshed call) = some after →
        ¬ EmptiesSettled ⟨final, .refreshed call, after⟩ →
        ∃ other forgotten, after.act inspectMaterial (.refreshed other) = some forgotten ∧
          ¬ forgotten.Remembers := by
  have putted := run.invariant FactsCache.Putted (putted_start table)
    fun before deed after acted putted => putted_act acted putted
  refine ⟨fun settled => ?_, fun call after acted unsettled => putted.forgets acted unsettled⟩
  have both := run.invariant_along (fun cache => cache.Putted ∧ cache.Kept)
    ⟨putted_start table, kept_start table⟩
    fun event member acted kept =>
      ⟨putted_act acted kept.1, kept_act acted (settled event member) kept.1 kept.2⟩
  exact both.2.remembers putted

end

/-! ## Two refreshes -/

def uploaded : CertMaterial :=
  { fullchain := "chain", privkey := "key" }

/-- Both queries read before the row is there; the first answer empties the second
table, and the second answer finds nothing there. -/
def overlapping : List (CacheDeed Nat String) :=
  [.refresh 0, .refresh 1, .snapshot 0, .snapshot 1, .put 0 0 "web" uploaded, .inserted 0,
    .returned 0, .refreshed 0, .refreshed 1]

theorem own_put_forgotten :
    ∃ history final, Follows (CacheActs fun _ _ => some "facts")
        (.start .empty : FactsCache Nat String) history final ∧
      history.map Event.label = overlapping ∧ ¬ final.Remembers := by
  obtain ⟨history, final, run, labels, forgotten⟩ := @follows_of_attempt _ _
    (fun (before : FactsCache Nat String) deed => before.act (fun _ _ => some "facts") deed)
    (.start .empty) overlapping
    (fun (_, final) => final.returned.any fun ref => (final.factsOf ref).isNone)
    (by decide +kernel)
  refine ⟨history, final, run, labels, fun remembers => ?_⟩
  obtain ⟨ref, member, unknown⟩ := List.any_eq_true.mp forgotten
  have known := remembers ref member
  rw [Option.isNone_iff_eq_none.mp unknown] at known
  cases known

/-- The first query reads before the row is there, the second one afterwards. -/
def overtaken : List (CacheDeed Bool String) :=
  [.refresh false, .snapshot false, .put false 0 "web" uploaded, .inserted false,
    .returned false, .refresh true, .snapshot true, .refreshed false, .refreshed true]

/-- `EmptiesSettled`, with two calls. -/
def emptiesSettled {φ : Type} (event : Event (FactsCache Bool φ) (CacheDeed Bool φ)) : Bool :=
  match event.label with
  | .refreshed call =>
      match event.before.refreshes (!call) with
      | .read rows => event.before.mine.keys.all fun ref => decide (ref ∈ rows.map Prod.fst)
      | _ => true
  | _ => true

theorem settled_of_emptiesSettled {φ : Type}
    {event : Event (FactsCache Bool φ) (CacheDeed Bool φ)}
    (settled : emptiesSettled event = true) : EmptiesSettled event := by
  intro call other rows named different here ref mine
  obtain rfl : other = !call := by
    cases other <;> cases call <;> simp at different ⊢
  simp only [emptiesSettled, named, here] at settled
  exact of_decide_eq_true (List.all_eq_true.mp settled ref mine)

theorem overtaken_remembered :
    ∃ history final, Follows (CacheActs fun _ _ => some "facts")
        (.start .empty : FactsCache Bool String) history final ∧
      history.map Event.label = overtaken ∧ final.Remembers := by
  obtain ⟨history, final, run, labels, settled⟩ := @follows_of_attempt _ _
    (fun (before : FactsCache Bool String) deed => before.act (fun _ _ => some "facts") deed)
    (.start .empty) overtaken (fun (history, _) => history.all emptiesSettled)
    (by decide +kernel)
  exact ⟨history, final, run, labels, (own_puts_remembered run).1 fun event member =>
    settled_of_emptiesSettled (List.all_eq_true.mp settled event member)⟩

end Barycenter.Dp.Secrets
