import Mathlib.Data.List.Induction
import Barycenter.Control.Membership

/-!
# Why a backend receives no traffic

The status rows give an operator a verdict for every backend of the model; the
slot lists are what the balancers read.  The two are computed apart.  The
rows look at the backend alone, by its key, whereas a slot list knows peers,
which are addresses: an address stays in a slot list as long as some backend at
that address is spared, whichever pool that backend belongs to, and an address
leaves it when discovery has replaced the backends of the pool.  The rows and
the lists therefore agree exactly when neither of these makes a difference.
-/

namespace Barycenter

namespace Control

open Config
open Dp (Plane)

inductive BackendExclusion where
  | unhealthy
  | draining
  | poolNotRouted
  | poolMissing
deriving DecidableEq, Repr

def BackendExclusion.text : BackendExclusion → String
  | .unhealthy => "unhealthy"
  | .draining => "draining"
  | .poolNotRouted => "pool_not_routed"
  | .poolMissing => "pool_missing"

structure HealthObservation where
  observedAt : String
  detail : Option String := none
deriving DecidableEq, Repr

structure RowHealth where
  state : HealthState
  observedAt : Option String := none
  detail : Option String := none
deriving DecidableEq, Repr

structure BackendStatusRow where
  key : String
  pool : String
  host : String
  port : Nat
  plane : Option Plane
  health : RowHealth
  draining : Bool
  receivingTraffic : Bool
  reasons : List BackendExclusion
deriving DecidableEq, Repr

structure BackendStatusInput where
  model : Model
  verdicts : Verdicts
  detail : OrderedMap String HealthObservation
  routedPools : List String

/-- The last pool with a key, as a map built from the list answers. -/
def poolWithKey (pools : List Pool) (key : String) : Option Pool :=
  pools.reverse.find? fun pool => decide (pool.key = key)

def placementReasons
    (input : BackendStatusInput) (backend : Backend) : List BackendExclusion :=
  match poolWithKey input.model.pools backend.pool with
  | none => [.poolMissing]
  | some _ => if backend.pool ∈ input.routedPools then [] else [.poolNotRouted]

def exclusionReasons
    (input : BackendStatusInput) (backend : Backend) : List BackendExclusion :=
  sortedBy BackendExclusion.text <|
    (if (input.verdicts.health.get? backend.key).getD .unknown = .unhealthy then
        [.unhealthy]
      else []) ++
    (if backend.key ∈ input.verdicts.draining then [.draining] else []) ++
    placementReasons input backend

def statusRow (input : BackendStatusInput) (backend : Backend) : BackendStatusRow :=
  let seen := input.detail.get? backend.key
  { key := backend.key
    pool := backend.pool
    host := backend.host
    port := backend.port
    plane := (poolWithKey input.model.pools backend.pool).map planeOf
    health :=
      { state := (input.verdicts.health.get? backend.key).getD .unknown
        observedAt := seen.map HealthObservation.observedAt
        detail := seen.bind HealthObservation.detail }
    draining := decide (backend.key ∈ input.verdicts.draining)
    receivingTraffic := (exclusionReasons input backend).isEmpty
    reasons := exclusionReasons input backend }

def backendStatusRows (input : BackendStatusInput) : List BackendStatusRow :=
  sortedBy BackendStatusRow.key (input.model.backends.map (statusRow input))

/-! ## What the rows say -/

variable {input : BackendStatusInput}

theorem mem_backendStatusRows {row : BackendStatusRow} :
    row ∈ backendStatusRows input ↔
      ∃ backend ∈ input.model.backends, statusRow input backend = row := by
  simp [backendStatusRows]

variable {backend : Backend}

theorem spares_iff {verdicts : Verdicts} :
    verdicts.spares backend = true ↔
      (verdicts.health.get? backend.key).getD .unknown ≠ .unhealthy ∧
        backend.key ∉ verdicts.draining := by
  simp only [Verdicts.spares, Bool.and_eq_true, decide_eq_true_eq]
  cases verdicts.health.get? backend.key with
  | none | some state => simp

theorem placementReasons_eq_nil
 :
    placementReasons input backend = [] ↔
      (∃ pool, poolWithKey input.model.pools backend.pool = some pool) ∧
        backend.pool ∈ input.routedPools := by
  unfold placementReasons
  cases poolWithKey input.model.pools backend.pool with
  | none => simp
  | some pool => by_cases routed : backend.pool ∈ input.routedPools <;> simp [routed]

theorem receivingTraffic_iff :
    (statusRow input backend).receivingTraffic = true ↔
      input.verdicts.spares backend = true ∧
        (∃ pool, poolWithKey input.model.pools backend.pool = some pool) ∧
          backend.pool ∈ input.routedPools := by
  rw [spares_iff, ← placementReasons_eq_nil]
  have sortedEmpty (reasons : List BackendExclusion) :
      (sortedBy BackendExclusion.text reasons).isEmpty = true ↔ reasons = [] := by
    rw [List.isEmpty_iff_length_eq_zero, length_sortedBy, List.length_eq_zero_iff]
  simp only [statusRow, exclusionReasons, sortedEmpty, List.append_eq_nil_iff]
  by_cases down : (input.verdicts.health.get? backend.key).getD .unknown = .unhealthy <;>
    by_cases drained : backend.key ∈ input.verdicts.draining <;>
      simp [down, drained]

/-! ## What the slot lists say -/

section Slots

variable (renderer : Renderer) (model : Model) (intake : Option DiscoveryIntake)

/-- The pool whose peers stand under the upstream name of `pool`: the last one
of the plane with that name and with peers. -/
def slotHolder (pool : Pool) : Option Pool :=
  model.pools.reverse.find? fun other =>
    decide (planeOf other = planeOf pool) &&
      decide (upstreamName renderer.digest other.key =
        upstreamName renderer.digest pool.key) &&
      decide (peersOf (applyDiscoveredEndpoints model intake) other.key ≠ [])

end Slots

theorem upstreamNameIn_eq_some
    {digest : String → String} {conf poolKey name : String} :
    upstreamNameIn digest conf poolKey = some name ↔
      upstreamName digest poolKey = name ∧
        Text.includes conf ("upstream " ++ name ++ " \x7b") = true := by
  constructor
  · intro found
    simp only [upstreamNameIn] at found
    split at found
    · next included =>
        have same := Option.some.inj found
        exact ⟨same, same ▸ included⟩
    · cases found
  · rintro ⟨rfl, included⟩
    exact if_pos included

/-- Does the pool put its list under this name on this plane? -/
def filesUnder
    (digest : String → String) (conf : String) (used : Model) (plane : Plane)
    (name : String) (pool : Pool) : Bool :=
  decide (planeOf pool = plane) &&
    decide (upstreamNameIn digest conf pool.key = some name) &&
    decide (peersOf used pool.key ≠ [])

theorem get?_fileSlots
    (digest : String → String) (conf : String) (used : Model) (plane : Plane)
    (name : String) (slots : Slots) (pool : Pool) :
    (fileSlots digest conf used plane slots pool).get? name =
      if filesUnder digest conf used plane name pool = true then
        some (weightedSlots (peersOf used pool.key))
      else slots.get? name := by
  by_cases idle : peersOf used pool.key = []
  · simp [fileSlots, filesUnder, idle]
  · cases named : upstreamNameIn digest conf pool.key with
    | none => simp [fileSlots, filesUnder, idle, named]
    | some other =>
        by_cases there : planeOf pool = plane
        · by_cases same : other = name
          · simp [fileSlots, filesUnder, idle, named, there, same]
          · simp [fileSlots, filesUnder, idle, named, there, same,
              OrderedMap.get?_set_other]
        · simp [fileSlots, filesUnder, idle, named, there]

/-- Filing the pools one after the other leaves, under a name, the list of the
last pool that files under it. -/
theorem get?_foldl_fileSlots
    (digest : String → String) (conf : String) (used : Model) (plane : Plane)
    (name : String) (pools : List Pool) :
    (pools.foldl (fileSlots digest conf used plane) OrderedMap.empty).get? name =
      (pools.reverse.find? (filesUnder digest conf used plane name)).map
        fun pool => weightedSlots (peersOf used pool.key) := by
  induction pools using List.reverseRecOn with
  | nil => rfl
  | append_singleton pools pool induction =>
      rw [List.foldl_append, List.foldl_cons, List.foldl_nil, get?_fileSlots,
        List.reverse_append, List.reverse_singleton, List.singleton_append,
        List.find?_cons, induction]
      cases filesUnder digest conf used plane name pool <;> rfl

/-- A row's own pool is known and the row's address is in the slot list filed
under the name of that pool, on the plane of that pool. -/
def OccursInOwnSlots
    (renderer : Renderer) (model : Model) (verdicts : Verdicts)
    (intake : Option DiscoveryIntake) (row : BackendStatusRow) : Prop :=
  ∃ plane, row.plane = some plane ∧
    ∃ peers,
      (slotsForEligible renderer model
          (eligibleWithDiscovery model verdicts intake) intake plane).get?
        (upstreamName renderer.digest row.pool) = some peers ∧
      peerOf row.host row.port ∈ peers

section Agreement

variable (renderer : Renderer) (model : Model) (verdicts : Verdicts)
  (intake : Option DiscoveryIntake)

/-- Some backend of the pool that holds the slot list of `pool` is at the
address of `backend`, once the discovered endpoints are in place. -/
def AddressServed (pool : Pool) (backend : Backend) : Prop :=
  ∃ holder, slotHolder renderer model intake pool = some holder ∧
    ∃ used ∈ (applyDiscoveredEndpoints model intake).backends,
      used.pool = holder.key ∧ peerOfBackend used = peerOfBackend backend

/-- Some backend of any pool at the address of `backend` is neither unhealthy
nor draining. -/
def AddressSpared (backend : Backend) : Prop :=
  ∃ used ∈ (applyDiscoveredEndpoints model intake).backends,
    verdicts.spares used = true ∧ peerOfBackend used = peerOfBackend backend

/-- For every backend of a routed pool, being spared itself comes to the same
as its address being served by the pool and spared. -/
def KeysFollowAddresses : Prop :=
  ∀ backend ∈ model.backends, ∀ pool,
    poolWithKey model.pools backend.pool = some pool →
    backend.pool ∈ routedPools renderer model →
      (verdicts.spares backend = true ↔
        AddressServed renderer model intake pool backend ∧
          AddressSpared model verdicts intake backend)

variable {renderer model verdicts intake}

variable {key : String} {pool : Pool}

theorem poolWithKey_spec
    {pools : List Pool} (found : poolWithKey pools key = some pool) :
    pool ∈ pools ∧ pool.key = key := by
  have member := List.mem_of_find?_eq_some found
  have keyed := List.find?_some found
  exact ⟨List.mem_reverse.mp member, of_decide_eq_true keyed⟩

theorem mem_routedPools :
    key ∈ routedPools renderer model ↔
      (∃ pool ∈ model.pools, pool.key = key) ∧
        Text.includes (renderer.conf model)
          ("upstream " ++ upstreamName renderer.digest key ++ " \x7b") = true := by
  simp only [routedPools, List.mem_map, List.mem_filter, Option.isSome_iff_exists,
    upstreamNameIn_eq_some]
  constructor
  · rintro ⟨pool, ⟨member, name, rfl, included⟩, rfl⟩
    exact ⟨⟨pool, member, rfl⟩, included⟩
  · rintro ⟨⟨pool, member, rfl⟩, included⟩
    exact ⟨pool, ⟨member, _, rfl, included⟩, rfl⟩

theorem mem_peersOf {used : Model} {poolKey peer : String} :
    (∃ each ∈ peersOf used poolKey, each.peer = peer) ↔
      ∃ backend ∈ used.backends,
        backend.pool = poolKey ∧ peerOfBackend backend = peer := by
  simp [peersOf, and_assoc]

/-- The pools that file under the name of a pool on its plane, given that the
configuration has an upstream of that name, are those its holder is chosen
from. -/
theorem filesUnder_name
    (included : Text.includes (renderer.conf model)
      ("upstream " ++ upstreamName renderer.digest pool.key ++ " \x7b") = true) :
    model.pools.reverse.find?
        (filesUnder renderer.digest (renderer.conf model)
          (applyDiscoveredEndpoints model intake) (planeOf pool)
          (upstreamName renderer.digest pool.key)) =
      slotHolder renderer model intake pool := by
  unfold slotHolder
  refine congrArg (fun files => model.pools.reverse.find? files) (funext fun other => ?_)
  simp [filesUnder, upstreamNameIn_eq_some, included]

theorem filesUnder_excluded
    {plane : Plane} (excluded : Text.includes (renderer.conf model)
      ("upstream " ++ upstreamName renderer.digest key ++ " \x7b") = false) :
    model.pools.reverse.find?
        (filesUnder renderer.digest (renderer.conf model)
          (applyDiscoveredEndpoints model intake) plane
          (upstreamName renderer.digest key)) = none := by
  rw [List.find?_eq_none]
  intro other _
  simp [filesUnder, upstreamNameIn_eq_some, excluded]

/-- Under the name of a pool without an upstream there is no slot list, and
under that of another one there is the list of its holder. -/
theorem slotsOf_get? (pool : Pool) :
    (slotsOf renderer model intake (planeOf pool)).get?
        (upstreamName renderer.digest pool.key) =
      if Text.includes (renderer.conf model)
          ("upstream " ++ upstreamName renderer.digest pool.key ++ " \x7b") = true then
        (slotHolder renderer model intake pool).map fun holder =>
          weightedSlots (peersOf (applyDiscoveredEndpoints model intake) holder.key)
      else none := by
  simp only [slotsOf, applyDiscoveredEndpoints_pools, get?_foldl_fileSlots]
  split
  · next included => rw [filesUnder_name included]
  · next excluded => rw [filesUnder_excluded (Bool.not_eq_true _ ▸ excluded)]; rfl

theorem eligible_peer {peer : String} :
    peer ∈ (eligibleWithDiscovery model verdicts intake).backends.map peerOfBackend ↔
      ∃ used ∈ (applyDiscoveredEndpoints model intake).backends,
        verdicts.spares used = true ∧ peerOfBackend used = peer := by
  simp [eligibleWithDiscovery, reduceMembership, and_assoc]

/-- An address is in the pushed list of a pool exactly when the configuration
has the upstream of the pool and the address is served and spared. -/
theorem occurs_under_name {backend : Backend} :
    (∃ peers,
        (slotsForEligible renderer model
            (eligibleWithDiscovery model verdicts intake) intake (planeOf pool)).get?
          (upstreamName renderer.digest pool.key) = some peers ∧
        peerOfBackend backend ∈ peers) ↔
      Text.includes (renderer.conf model)
          ("upstream " ++ upstreamName renderer.digest pool.key ++ " \x7b") = true ∧
        AddressServed renderer model intake pool backend ∧
          AddressSpared model verdicts intake backend := by
  simp only [slotsForEligible, OrderedMap.get?_mapValues, slotsOf_get?]
  split
  · next included =>
      simp only [AddressServed, AddressSpared]
      cases slotHolder renderer model intake pool with
      | none => simp [included]
      | some holder =>
          simp only [Option.map_some, Option.some.injEq, exists_eq_left',
            List.mem_filter, decide_eq_true_eq, eligible_peer, mem_weightedSlots,
            mem_peersOf, included, true_and]
  · next excluded => simp [excluded]

/-- The slot list of a backend's own pool holds its address exactly when the
pool is routed and the address is served and spared. -/
theorem occursInOwnSlots_iff
    {input : BackendStatusInput} (sameModel : input.model = model)
    {backend : Backend} :
    OccursInOwnSlots renderer model verdicts intake (statusRow input backend) ↔
      ∃ pool, poolWithKey model.pools backend.pool = some pool ∧
        backend.pool ∈ routedPools renderer model ∧
          AddressServed renderer model intake pool backend ∧
            AddressSpared model verdicts intake backend := by
  subst sameModel
  have rowPlane :
      (statusRow input backend).plane =
        (poolWithKey input.model.pools backend.pool).map planeOf := rfl
  cases found : poolWithKey input.model.pools backend.pool with
  | none => simp [OccursInOwnSlots, rowPlane, found]
  | some pool =>
      obtain ⟨member, keyed⟩ := poolWithKey_spec found
      have included :
          backend.pool ∈ routedPools renderer input.model ↔
            Text.includes (renderer.conf input.model)
              ("upstream " ++ upstreamName renderer.digest pool.key ++ " \x7b") =
                true := by
        rw [mem_routedPools, ← keyed]
        exact and_iff_right ⟨pool, member, rfl⟩
      have rowPool : (statusRow input backend).pool = pool.key := keyed.symm
      have occurs := @occurs_under_name renderer input.model verdicts intake pool backend
      simp only [OccursInOwnSlots, rowPlane, found, Option.map_some, rowPool,
        Option.some.injEq, exists_eq_left', included]
      exact occurs

variable (renderer model verdicts intake)

/-- For every model, every health map and drain set and every discovery result,
the rows report the traffic that the slot lists carry if and only if every
backend of a routed pool is spared exactly when its address is. -/
theorem status_agrees_with_slots_iff (detail : OrderedMap String HealthObservation) :
    (∀ row ∈ backendStatusRows
        { model := model
          verdicts := verdicts
          detail := detail
          routedPools := routedPools renderer model },
      (row.receivingTraffic = true ↔
        OccursInOwnSlots renderer model verdicts intake row)) ↔
      KeysFollowAddresses renderer model verdicts intake := by
  simp only [mem_backendStatusRows, forall_exists_index, and_imp,
    forall_apply_eq_imp_iff₂, receivingTraffic_iff, occursInOwnSlots_iff]
  apply forall₂_congr
  intro backend _
  cases found : poolWithKey model.pools backend.pool with
  | none => simp
  | some pool =>
      by_cases routed : backend.pool ∈ routedPools renderer model
      · simp [routed]
      · simp [routed]

end Agreement

/-! ## Two backends at one address -/

/-- Two pools, each with a backend at the same address, of which the first is
being drained. -/
def twinModel : Model :=
  { pools :=
      [{ key := "app", protocolClass := .http, algorithm := .roundRobin },
        { key := "api", protocolClass := .http, algorithm := .roundRobin }]
    backends :=
      [{ key := "a", pool := "app", host := "10.0.0.1", port := 80, weight := 1 },
        { key := "b", pool := "api", host := "10.0.0.1", port := 80, weight := 1 }] }

def twinRenderer : Renderer :=
  { conf := fun _ => "upstream pool_app \x7b upstream pool_api \x7b"
    digest := fun _ => "" }

def twinVerdicts : Verdicts :=
  { health := OrderedMap.empty
    draining := ["a"] }

/-- The row of the draining backend reports no traffic, and its own pool keeps
sending traffic to its address because the other pool's backend is spared. -/
theorem draining_twin_disagrees :
    ¬ ∀ row ∈ backendStatusRows
        { model := twinModel
          verdicts := twinVerdicts
          detail := OrderedMap.empty
          routedPools := routedPools twinRenderer twinModel },
      (row.receivingTraffic = true ↔
        OccursInOwnSlots twinRenderer twinModel twinVerdicts none row) := by
  intro agrees
  let backend : Backend :=
    { key := "a", pool := "app", host := "10.0.0.1", port := 80, weight := 1 }
  let twin : Backend :=
    { key := "b", pool := "api", host := "10.0.0.1", port := 80, weight := 1 }
  let pool : Pool := { key := "app", protocolClass := .http, algorithm := .roundRobin }
  have served : AddressServed twinRenderer twinModel none pool backend :=
    ⟨pool, by decide +kernel, backend, by decide, rfl, rfl⟩
  have spared : AddressSpared twinModel twinVerdicts none backend :=
    ⟨twin, by decide, by decide, rfl⟩
  have occurs : OccursInOwnSlots twinRenderer twinModel twinVerdicts none
      (statusRow
        { model := twinModel
          verdicts := twinVerdicts
          detail := OrderedMap.empty
          routedPools := routedPools twinRenderer twinModel } backend) :=
    (occursInOwnSlots_iff rfl).mpr
      ⟨pool, by decide, by decide +kernel, served, spared⟩
  have receives :=
    (agrees _ (mem_backendStatusRows.mpr ⟨backend, by decide, rfl⟩)).mpr occurs
  have spares : twinVerdicts.spares backend = true := (receivingTraffic_iff.mp receives).1
  exact absurd spares (by decide)

end Control

end Barycenter
