import Mathlib.Data.List.Sort
import Mathlib.Data.List.Perm.Basic
import Barycenter.Store.ResourceKeeper

/-!
# The manifest

A manifest lists the resources of a model, kind after kind in the order in
which they are made.  An import puts every listed resource that the current
model does not have as it is listed, in the order of the list; an import that
replaces then deletes what is not listed, the kinds that refer first.  Two
resources of one name are the same when their specifications are.
-/

namespace Barycenter

namespace Store

open Config

structure Manifest where
  resources : List Resource
deriving DecidableEq, Repr

inductive ImportMode where
  | merge
  | replace
deriving DecidableEq, Repr

/-- The resources of one kind; the settings of the engine are one resource. -/
def ofKind (model : Model) : ResourceKind → List Resource
  | .engine => model.engine.toList.map Resource.engine
  | .pool => model.pools.map Resource.pool
  | .backend => model.backends.map Resource.backend
  | .certificate => model.certificates.map Resource.certificate
  | .tlsPolicy => model.tlsPolicies.map Resource.tlsPolicy
  | .addressSet => (model.addressSets.getD []).map Resource.addressSet
  | .listener => model.listeners.map Resource.listener
  | .httpRoute => model.httpRoutes.map Resource.httpRoute
  | .passthroughRoute => model.passthroughRoutes.map Resource.passthroughRoute
  | .sniBinding => model.sniBindings.map Resource.sniBinding

def modelResources (model : Model) : List Resource :=
  kinds.flatMap (ofKind model)

def exportManifest (model : Model) : Manifest :=
  { resources := modelResources model }

def byName (current : Model) : OrderedMap ResourceName Resource :=
  OrderedMap.fromEntries ((modelResources current).map fun item => (resourceName item, item))

def wantedPuts (current : Model) (manifest : Manifest) : List Resource :=
  manifest.resources.filter fun item =>
    decide ((byName current).get? (resourceName item) ≠ some item)

/-- The names that are not wanted, those that refer before those referred to. -/
def doomedNames (current : Model) (manifest : Manifest) : List ResourceName :=
  ((byName current).keys.filter fun name =>
    decide (name ∉ manifest.resources.map resourceName)).insertionSort
      fun left right => right.kind.rank ≤ left.kind.rank

def importPatch (current : Model) (manifest : Manifest) (mode : ImportMode) : List PatchOp :=
  (wantedPuts current manifest).map .put ++
    match mode with
    | .merge => []
    | .replace =>
        (doomedNames current manifest).map fun name => .delete name.kind name.key

/-- Two models with the same resources, in whatever order. -/
structure SameUpToOrder (left right : Model) : Prop where
  engine : left.engine = right.engine
  pools : left.pools.Perm right.pools
  backends : left.backends.Perm right.backends
  certificates : left.certificates.Perm right.certificates
  tlsPolicies : left.tlsPolicies.Perm right.tlsPolicies
  setsPresent : left.addressSets.isSome = right.addressSets.isSome
  addressSets : (left.addressSets.getD []).Perm (right.addressSets.getD [])
  listeners : left.listeners.Perm right.listeners
  httpRoutes : left.httpRoutes.Perm right.httpRoutes
  passthroughRoutes : left.passthroughRoutes.Perm right.passthroughRoutes
  sniBindings : left.sniBindings.Perm right.sniBindings

def DistinctKeys (model : Model) : Prop :=
  ((modelResources model).map resourceName).Nodup

/-! ## Resources of a model -/

section Resources

variable {model : Model} {kind : ResourceKind} {item : Resource}

theorem kind_of_mem (member : item ∈ ofKind model kind) : (resourceName item).kind = kind := by
  cases kind <;>
    (obtain ⟨_, _, rfl⟩ := List.mem_map.mp member
     rfl)

theorem mem_kinds (kind : ResourceKind) : kind ∈ kinds := by
  cases kind <;> decide

theorem mem_modelResources :
    item ∈ modelResources model ↔ item ∈ ofKind model (resourceName item).kind := by
  rw [modelResources, List.mem_flatMap]
  constructor
  · rintro ⟨kind, _, member⟩
    rwa [kind_of_mem member]
  · intro member
    exact ⟨_, mem_kinds _, member⟩

theorem mem_ofKind :
    item ∈ ofKind model kind ↔ item ∈ modelResources model ∧ (resourceName item).kind = kind := by
  rw [mem_modelResources]
  constructor
  · intro member
    have same := kind_of_mem member
    exact ⟨same ▸ member, same⟩
  · rintro ⟨member, rfl⟩
    exact member

theorem modelResources_ordered (model : Model) :
    (modelResources model).Pairwise fun left right =>
      (resourceName left).kind.rank ≤ (resourceName right).kind.rank := by
  rw [modelResources, List.pairwise_flatMap]
  constructor
  · intro kind _
    apply List.pairwise_of_forall_mem_list
    intro left leftMember right rightMember
    exact le_of_eq (by rw [kind_of_mem leftMember, kind_of_mem rightMember])
  · have ordered : kinds.Pairwise fun left right => left.rank ≤ right.rank := by decide
    refine ordered.imp fun below left leftMember right rightMember => ?_
    rwa [kind_of_mem leftMember, kind_of_mem rightMember]

theorem distinctKeys_iff :
    DistinctKeys model ↔ ∀ kind, ((ofKind model kind).map resourceName).Nodup := by
  rw [DistinctKeys, modelResources, List.map_flatMap, List.nodup_flatMap]
  constructor
  · rintro ⟨each, _⟩ kind
    exact each kind (mem_kinds kind)
  · intro each
    refine ⟨fun kind _ => each kind, ?_⟩
    have apart : kinds.Nodup := by decide
    refine apart.imp fun different name left right => different ?_
    obtain ⟨item, itemMember, rfl⟩ := List.mem_map.mp left
    obtain ⟨other, otherMember, same⟩ := List.mem_map.mp right
    rw [← kind_of_mem itemMember, ← same, kind_of_mem otherMember]

theorem among_model (distinct : DistinctKeys model) {name : ResourceName} :
    resources.among (modelResources model) name = some item ↔
      item ∈ modelResources model ∧ resourceName item = name :=
  @Registry.among_eq_some _ _ _ resources item _ name _ distinct

theorem DistinctKeys.nodup (distinct : DistinctKeys model) (kind : ResourceKind) :
    (ofKind model kind).Nodup :=
  (distinctKeys_iff.mp distinct kind).of_map

end Resources

section Order

variable {left right : Model}

/-- Models have the same resources up to order exactly when each kind has, and
they agree on whether there is a list of address sets. -/
theorem sameUpToOrder_iff :
    SameUpToOrder left right ↔
      (∀ kind, (ofKind left kind).Perm (ofKind right kind)) ∧
        left.addressSets.isSome = right.addressSets.isSome := by
  constructor
  · intro same
    refine ⟨fun kind => ?_, same.setsPresent⟩
    cases kind with
    | engine =>
        rw [ofKind, ofKind, same.engine]
    | pool => exact same.pools.map _
    | backend => exact same.backends.map _
    | certificate => exact same.certificates.map _
    | tlsPolicy => exact same.tlsPolicies.map _
    | addressSet => exact same.addressSets.map _
    | listener => exact same.listeners.map _
    | httpRoute => exact same.httpRoutes.map _
    | passthroughRoute => exact same.passthroughRoutes.map _
    | sniBinding => exact same.sniBindings.map _
  · rintro ⟨each, present⟩
    have engine : left.engine = right.engine := by
      have same := (List.map_perm_map_iff fun _ _ => Resource.engine.inj).mp (each .engine)
      cases leftEngine : left.engine <;> cases rightEngine : right.engine <;>
        simp_all
    exact
      { engine := engine
        pools := (List.map_perm_map_iff fun _ _ => Resource.pool.inj).mp (each .pool)
        backends := (List.map_perm_map_iff fun _ _ => Resource.backend.inj).mp (each .backend)
        certificates :=
          (List.map_perm_map_iff fun _ _ => Resource.certificate.inj).mp (each .certificate)
        tlsPolicies :=
          (List.map_perm_map_iff fun _ _ => Resource.tlsPolicy.inj).mp (each .tlsPolicy)
        setsPresent := present
        addressSets :=
          (List.map_perm_map_iff fun _ _ => Resource.addressSet.inj).mp (each .addressSet)
        listeners := (List.map_perm_map_iff fun _ _ => Resource.listener.inj).mp (each .listener)
        httpRoutes :=
          (List.map_perm_map_iff fun _ _ => Resource.httpRoute.inj).mp (each .httpRoute)
        passthroughRoutes :=
          (List.map_perm_map_iff fun _ _ => Resource.passthroughRoute.inj).mp
            (each .passthroughRoute)
        sniBindings :=
          (List.map_perm_map_iff fun _ _ => Resource.sniBinding.inj).mp (each .sniBinding) }

end Order

/-! ## The resources that tables show -/

section Read

variable {collation : Collation} {tables : Tables}

theorem mem_read (kept : RowsKept tables) {item : Resource} :
    item ∈ modelResources (readModel collation tables) ↔
      shown tables (resourceName item) = some item := by
  have entry {β R : Type} {family : Family β R} {kind : ResourceKind} {wrap : β → Resource}
      (shows : family.Shows kind wrap) (injective : Function.Injective wrap) (resource : β) :
      wrap resource ∈
          (resourcesOf collation family.resource (family.table tables)).map wrap ↔
        shown tables (resourceName (wrap resource)) = some (wrap resource) := by
    rw [List.mem_map_of_injective injective, mem_resourcesOf,
      shows.here _ _ (shows.kindOf resource), shows.keyOf, Option.map_eq_some_iff]
    constructor
    · rintro ⟨key, row, stored, rfl⟩
      rw [family.key_resource]
      exact ⟨row, stored, rfl⟩
    · rintro ⟨row, stored, same⟩
      exact ⟨_, row, stored, injective same⟩
  rw [mem_modelResources]
  cases item with
  | engine settings =>
      simp [ofKind, readModel, resourceName, shown]
  | pool pool => exact entry pool_shows (fun _ _ => Resource.pool.inj) pool
  | backend backend =>
      have every : tables.backends.filterValues BackendRow.enabled = tables.backends :=
        OrderedMap.filterValues_eq_self fun row member => by
          obtain ⟨key, stored⟩ := OrderedMap.mem_values_iff.mp member
          exact kept.backends key row stored
      change Resource.backend backend ∈ (resourcesOf collation backendOf
        (tables.backends.filterValues BackendRow.enabled)).map Resource.backend ↔ _
      rw [every]
      exact entry backend_shows (fun _ _ => Resource.backend.inj) backend
  | certificate certificate =>
      exact entry certificate_shows (fun _ _ => Resource.certificate.inj) certificate
  | tlsPolicy policy => exact entry tlsPolicy_shows (fun _ _ => Resource.tlsPolicy.inj) policy
  | addressSet set =>
      have filled : (readAddressSets collation tables).getD [] =
          resourcesOf collation addressSetOf tables.addressSets := by
        unfold readAddressSets
        cases resourcesOf collation addressSetOf tables.addressSets <;> rfl
      change Resource.addressSet set ∈
        ((readAddressSets collation tables).getD []).map Resource.addressSet ↔ _
      rw [filled]
      exact entry addressSet_shows (fun _ _ => Resource.addressSet.inj) set
  | listener listener =>
      exact entry listener_shows (fun _ _ => Resource.listener.inj) listener
  | httpRoute route => exact entry httpRoute_shows (fun _ _ => Resource.httpRoute.inj) route
  | passthroughRoute route =>
      exact entry passthroughRoute_shows (fun _ _ => Resource.passthroughRoute.inj) route
  | sniBinding binding =>
      exact entry sniBinding_shows (fun _ _ => Resource.sniBinding.inj) binding

theorem read_distinct : DistinctKeys (readModel collation tables) := by
  have each {β R : Type} {family : Family β R} {kind : ResourceKind} {wrap : β → Resource}
      (shows : family.Shows kind wrap) (table : OrderedMap String R) :
      (((resourcesOf collation family.resource table).map wrap).map resourceName).Nodup := by
    have keys : (((resourcesOf collation family.resource table).map wrap).map
        resourceName).map ResourceName.key =
          (resourcesOf collation family.resource table).map family.key := by
      simp [shows.keyOf]
    have distinct := (@Family.ascending_of_read collation _ _ family _ table rfl).nodup
    exact (keys ▸ distinct).of_map ResourceName.key
  have sets : (((readAddressSets collation tables).getD []).map
      Resource.addressSet).map resourceName =
        ((resourcesOf collation addressSetOf tables.addressSets).map
          Resource.addressSet).map resourceName := by
    unfold readAddressSets
    cases resourcesOf collation addressSetOf tables.addressSets <;> rfl
  rw [distinctKeys_iff]
  intro kind
  cases kind with
  | engine =>
      simp only [ofKind, readModel]
      cases tables.engine <;> simp
  | pool => exact each pool_shows tables.pools
  | backend => exact each backend_shows (tables.backends.filterValues BackendRow.enabled)
  | certificate => exact each certificate_shows tables.certificates
  | tlsPolicy => exact each tlsPolicy_shows tables.tlsPolicies
  | addressSet =>
      simp only [ofKind, readModel, sets]
      exact each addressSet_shows tables.addressSets
  | listener => exact each listener_shows tables.listeners
  | httpRoute => exact each httpRoute_shows tables.httpRoutes
  | passthroughRoute => exact each passthroughRoute_shows tables.passthroughRoutes
  | sniBinding => exact each sniBinding_shows tables.sniBindings

theorem among_read (kept : RowsKept tables) :
    resources.among (modelResources (readModel collation tables)) = shown tables := by
  funext name
  apply Option.ext
  intro item
  rw [among_model read_distinct, mem_read kept]
  constructor
  · rintro ⟨found, rfl⟩
    exact found
  · intro found
    have same := shown_name found
    exact ⟨same.symm ▸ found, same⟩

theorem readAddressSets_isSome :
    (readAddressSets collation tables).isSome =
      !((readAddressSets collation tables).getD []).isEmpty := by
  unfold readAddressSets
  cases resourcesOf collation addressSetOf tables.addressSets <;> rfl

theorem holds_iff (kept : RowsKept tables) {model : Model} :
    SameUpToOrder (readModel collation tables) model ↔
      DistinctKeys model ∧ model.addressSets ≠ some [] ∧
        shown tables = resources.among (modelResources model) := by
  have filled {sets : List AddressSet}
      (same : ((readAddressSets collation tables).getD []).Perm sets) :
      (readAddressSets collation tables).isSome = !sets.isEmpty := by
    rw [readAddressSets_isSome, same.isEmpty_eq]
  rw [sameUpToOrder_iff]
  constructor
  · rintro ⟨each, present⟩
    have distinct : DistinctKeys model :=
      distinctKeys_iff.mpr fun kind =>
        ((each kind).map resourceName).nodup_iff.mp (distinctKeys_iff.mp read_distinct kind)
    refine ⟨distinct, ?_, ?_⟩
    · intro empty
      have sets := (List.map_perm_map_iff fun _ _ => Resource.addressSet.inj).mp
        (each .addressSet)
      have settled := filled sets
      rw [empty] at settled
      have absent : (readAddressSets collation tables).isSome = model.addressSets.isSome := present
      rw [absent, empty] at settled
      cases settled
    · have same : ∀ item, item ∈ modelResources (readModel collation tables) ↔
          item ∈ modelResources model := fun item => by
        rw [mem_modelResources, mem_modelResources, (each _).mem_iff]
      rw [← @among_read collation tables kept]
      funext name
      apply Option.ext
      intro item
      rw [among_model read_distinct, among_model distinct, same]
  · rintro ⟨distinct, sets, shows⟩
    have same : ∀ item, item ∈ modelResources (readModel collation tables) ↔
        item ∈ modelResources model := fun item => by
      rw [mem_read kept, shows, among_model distinct, and_iff_left rfl]
    have each : ∀ kind,
        (ofKind (readModel collation tables) kind).Perm (ofKind model kind) := fun kind =>
      (List.perm_ext_iff_of_nodup (read_distinct.nodup kind) (distinct.nodup kind)).mpr
        fun item => by rw [mem_ofKind, mem_ofKind, same]
    refine ⟨each, ?_⟩
    have settled := filled ((List.map_perm_map_iff fun _ _ => Resource.addressSet.inj).mp
      (each .addressSet))
    change (readAddressSets collation tables).isSome = _
    rw [settled]
    match model.addressSets, sets with
    | none, _ | some (_ :: _), _ => rfl

end Read

/-! ## The import -/

section Import

variable {current model : Model}

theorem byName_entries (distinct : DistinctKeys current) :
    (byName current).entries =
      (modelResources current).map fun item => (resourceName item, item) := by
  let map : OrderedMap ResourceName Resource :=
    { entries := (modelResources current).map fun item => (resourceName item, item)
      distinct := by
        rw [List.map_map]
        exact distinct }
  exact congrArg OrderedMap.entries (OrderedMap.fromEntries_entries map)

theorem byName_get? (distinct : DistinctKeys current) {name : ResourceName} {item : Resource} :
    (byName current).get? name = some item ↔
      item ∈ modelResources current ∧ resourceName item = name := by
  rw [← OrderedMap.mem_entries_iff, byName_entries distinct, List.mem_map]
  constructor
  · rintro ⟨_, member, same⟩
    cases same
    exact ⟨member, rfl⟩
  · rintro ⟨member, rfl⟩
    exact ⟨item, member, rfl⟩

theorem byName_eq (distinct : DistinctKeys current) :
    (byName current).get? = resources.among (modelResources current) := by
  funext name
  apply Option.ext
  intro item
  rw [byName_get? distinct, among_model distinct]

theorem wantedPuts_eq (distinct : DistinctKeys current) (manifest : Manifest) :
    wantedPuts current manifest =
      Keeper.changed resources (resources.among (modelResources current))
        manifest.resources := by
  rw [wantedPuts, byName_eq distinct]
  rfl

theorem doomedNames_spec (distinct : DistinctKeys current) (manifest : Manifest) :
    Keeper.Doomed resources (resources.among (modelResources current)) manifest.resources
      (doomedNames current manifest) where
  distinct :=
    (List.perm_insertionSort _ _).nodup_iff.mpr ((byName current).distinct.filter _)
  ordered := by
    have sorted := @List.pairwise_insertionSort ResourceName
      (fun left right => right.kind.rank ≤ left.kind.rank) _
      ⟨fun left right => Nat.le_total _ _⟩ ⟨fun _ _ _ first second => second.trans first⟩
    exact sorted _
  mem := by
    intro name
    rw [doomedNames, List.mem_insertionSort, List.mem_filter, OrderedMap.mem_keys_iff,
      byName_eq distinct, decide_eq_true_eq, Option.isSome_iff_exists]
    exact Iff.rfl

theorem applyOps_importPatch {tables : Tables} {collation : Collation} (kept : RowsKept tables)
    {manifest : Manifest} :
    applyOps tables (importPatch (readModel collation tables) manifest .replace) =
      tablesKeeper.bring tables manifest.resources
        (doomedNames (readModel collation tables) manifest) := by
  simp only [applyOps, importPatch, List.foldlM_append, List.foldlM_map]
  rw [wantedPuts_eq read_distinct, among_read kept]
  rfl

theorem importPatch_own (distinct : DistinctKeys model) {manifest : Manifest}
    (listed : manifest.resources.Perm (exportManifest model).resources) (mode : ImportMode) :
    importPatch model manifest mode = [] := by
  have puts : wantedPuts model manifest = [] := by
    rw [wantedPuts, List.filter_eq_nil_iff]
    intro item member
    have found := (byName_get? distinct).mpr ⟨listed.mem_iff.mp member, rfl⟩
    simp [found]
  have deletes : doomedNames model manifest = [] := by
    rw [List.eq_nil_iff_forall_not_mem]
    intro name member
    obtain ⟨present, missing⟩ := ((doomedNames_spec distinct manifest).mem name).mp member
    obtain ⟨item, found⟩ := Option.isSome_iff_exists.mp present
    obtain ⟨inside, rfl⟩ := (among_model distinct).mp found
    exact missing (List.mem_map_of_mem (listed.mem_iff.mpr inside))
  unfold importPatch
  rw [puts, deletes]
  cases mode <;> rfl

end Import

end Store

end Barycenter
