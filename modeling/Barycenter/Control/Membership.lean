import Barycenter.Foundation.OrderedMap
import Barycenter.Foundation.TextOrder
import Barycenter.Model.Provisional
import Barycenter.Dp.Operation
import Mathlib.Algebra.GroupWithZero.Nat

/-!
# Membership computed from a model

A slot list is the list of peers a balancer chooses from, filed under the
rendered name of its upstream.  The names come from the rendered
configuration of the model itself, the peers from the model after the
discovered endpoints have taken the place of the static ones, and the eligible
peers from the model after the health verdicts and the drains have been
applied.
-/

namespace Barycenter

namespace Control

open Config
open Dp (Plane)

/-! ## Discovery -/

structure DiscoveredEndpoint where
  pool : String
  host : String
  port : Nat
deriving DecidableEq, Repr

/-- Without `pools` an advertisement replaces every static backend, with
`pools` only those of the named pools. -/
structure Advertisement where
  endpoints : List DiscoveredEndpoint
  pools : Option (List String) := none
deriving DecidableEq, Repr

inductive DiscoveryIntake where
  | silent
  | advertised (advertisement : Advertisement)
deriving DecidableEq, Repr

def discoveredBackend (endpoint : DiscoveredEndpoint) : Backend :=
  { key := s!"disc:{endpoint.pool}:{endpoint.host}:{endpoint.port}"
    pool := endpoint.pool
    host := endpoint.host
    port := endpoint.port
    weight := 1 }

def Advertisement.accepts (advertisement : Advertisement) (pool : String) : Bool :=
  match advertisement.pools with
  | none => true
  | some pools => decide (pool ∈ pools)

def applyDiscoveredEndpoints (model : Model) : Option DiscoveryIntake → Model
  | none => model
  | some .silent => model
  | some (.advertised advertisement) =>
      let discovered :=
        (advertisement.endpoints.filter fun endpoint =>
          advertisement.accepts endpoint.pool).map discoveredBackend
      match advertisement.pools with
      | none => { model with backends := discovered }
      | some replaced =>
          { model with
            backends :=
              (model.backends.filter fun backend =>
                decide (backend.pool ∉ replaced)) ++ discovered }

@[simp]
theorem applyDiscoveredEndpoints_pools
    (model : Model) (intake : Option DiscoveryIntake) :
    (applyDiscoveredEndpoints model intake).pools = model.pools := by
  match intake with
  | none | some .silent | some (.advertised ⟨_, none⟩) | some (.advertised ⟨_, some _⟩) => rfl

/-! ## Health and drains -/

inductive HealthState where
  | healthy
  | unhealthy
  | unknown
deriving DecidableEq, Repr

/-- What the control plane knows about the backends besides the model. -/
structure Verdicts where
  health : OrderedMap String HealthState
  draining : List String
deriving DecidableEq, Repr

/-- An unmeasured backend is not excluded: at start-up every backend is. -/
def Verdicts.spares (verdicts : Verdicts) (backend : Backend) : Bool :=
  decide (verdicts.health.get? backend.key ≠ some .unhealthy) &&
    decide (backend.key ∉ verdicts.draining)

def reduceMembership (model : Model) (verdicts : Verdicts) : Model :=
  { model with backends := model.backends.filter verdicts.spares }

def eligibleWithDiscovery
    (model : Model) (verdicts : Verdicts) (intake : Option DiscoveryIntake) : Model :=
  reduceMembership (applyDiscoveredEndpoints model intake) verdicts

/-! ## Upstream names -/

/-- The renderer as seen from here: the text of a configuration, and the short
digest that keeps rendered names apart. -/
structure Renderer where
  conf : Model → String
  digest : String → String

def safeCharacter (character : Char) : Bool :=
  character.isAlphanum || character == '_'

/-- Replacing is done unit by unit, so a character of two units becomes two
underscores. -/
def safeIdent (key : String) : String :=
  String.ofList <| key.toList.flatMap fun character =>
    if safeCharacter character then
      [character]
    else
      (Text.unitsOf character).map fun _ => '_'

def ident (digest : String → String) (key : String) : String :=
  let safe := safeIdent key
  if safe = key then safe else safe ++ "_" ++ digest key

def upstreamName (digest : String → String) (poolKey : String) : String :=
  "pool_" ++ ident digest poolKey

/-- The name of a pool, if the configuration has an upstream for it. -/
def upstreamNameIn
    (digest : String → String) (conf poolKey : String) : Option String :=
  let name := upstreamName digest poolKey
  if Text.includes conf ("upstream " ++ name ++ " \x7b") then some name else none

def routedPools (renderer : Renderer) (model : Model) : List String :=
  (model.pools.filter fun pool =>
    (upstreamNameIn renderer.digest (renderer.conf model) pool.key).isSome).map
      Pool.key

/-! ## Weighted slots -/

structure PeerAttrs where
  softMaxConns : Option Nat
  isBackup : Option Bool
deriving DecidableEq, Repr

structure WeightedPeer where
  peer : String
  weight : Nat
  attrs : PeerAttrs
deriving DecidableEq, Repr

def slotExpansionCap : Nat := 256

/-- Give one more cell to each of `left` peers, going round `order`. -/
def spreadLeft (order : List Nat) : Nat → Nat → List Nat → List Nat
  | 0, _, counts => counts
  | left + 1, position, counts =>
      spreadLeft order left ((position + 1) % order.length)
        (counts.modify (order.getD position 0) (· + 1))

/-- Shrink the counts to the cap: one cell is set aside for every peer and the
rest is shared in proportion, heaviest first where a remainder is left. -/
def shrinkCounts (counts : List Nat) : List Nat :=
  let budget := slotExpansionCap - counts.length
  let excess := counts.map (· - 1)
  let shares := excess.map fun each => 1 + each * budget / excess.sum
  let order :=
    (List.range shares.length).mergeSort fun left right =>
      decide (excess.getD right 0 ≤ excess.getD left 0)
  spreadLeft order (slotExpansionCap - shares.sum) 0 shares

def reducedCounts (sorted : List WeightedPeer) : List Nat :=
  let divisor := sorted.foldl (fun acc each => Nat.gcd acc (max 1 each.weight)) 0
  let unit := if divisor = 0 then 1 else divisor
  sorted.map fun each => max 1 (max 1 each.weight / unit)

def cappedCounts (counts : List Nat) : List Nat :=
  if slotExpansionCap < counts.sum then
    if counts.length < slotExpansionCap then shrinkCounts counts
    else counts.map fun _ => 1
  else
    counts

def slotCounts (sorted : List WeightedPeer) : List Nat :=
  cappedCounts (reducedCounts sorted)

/-- Copy number `copy` of a peer with `width` copies, placed at the fraction
`(copy + 1/2) / width`. -/
structure SlotMark where
  copy : Nat
  width : Nat
  peer : String
deriving DecidableEq, Repr

def SlotMark.notAfter (left right : SlotMark) : Bool :=
  let leftKey := (2 * left.copy + 1) * right.width
  let rightKey := (2 * right.copy + 1) * left.width
  if leftKey ≠ rightKey then
    decide (leftKey < rightKey)
  else
    !(Text.before right.peer left.peer)

def slotMarks (sorted : List WeightedPeer) : List SlotMark :=
  (sorted.zipIdx).flatMap fun (each, position) =>
    let width := (slotCounts sorted).getD position 1
    (List.range width).map fun copy =>
      { copy := copy, width := width, peer := each.peer }

def weightedSlots (peers : List WeightedPeer) : List String :=
  ((slotMarks (sortedBy WeightedPeer.peer peers)).mergeSort SlotMark.notAfter).map
    SlotMark.peer

/-! ### Every peer keeps a cell -/

theorem spreadLeft_pos
    {order : List Nat} {left position : Nat} {counts : List Nat}
    (positive : ∀ count ∈ counts, 0 < count) :
    ∀ count ∈ spreadLeft order left position counts, 0 < count := by
  induction left generalizing position counts with
  | zero => exact positive
  | succ left induction =>
      apply induction
      intro count member
      obtain ⟨index, bound, rfl⟩ := List.mem_iff_getElem.mp member
      rw [List.getElem_modify]
      have within : index < counts.length := by simpa using bound
      have old : 0 < counts[index] := positive _ (List.getElem_mem within)
      split <;> omega

theorem shrinkCounts_pos (counts : List Nat) :
    ∀ count ∈ shrinkCounts counts, 0 < count := by
  apply spreadLeft_pos
  intro count member
  obtain ⟨each, -, rfl⟩ := List.mem_map.mp member
  exact Nat.add_pos_left Nat.one_pos _

theorem reducedCounts_pos (sorted : List WeightedPeer) :
    ∀ count ∈ reducedCounts sorted, 0 < count := by
  intro count member
  obtain ⟨each, -, rfl⟩ := List.mem_map.mp member
  exact Nat.lt_of_lt_of_le Nat.one_pos (Nat.le_max_left _ _)

theorem cappedCounts_pos
    {counts : List Nat} (positive : ∀ count ∈ counts, 0 < count) :
    ∀ count ∈ cappedCounts counts, 0 < count := by
  unfold cappedCounts
  split
  · split
    · exact shrinkCounts_pos counts
    · intro count member
      obtain ⟨_, -, rfl⟩ := List.mem_map.mp member
      exact Nat.one_pos
  · exact positive

theorem slotCounts_pos (sorted : List WeightedPeer) :
    ∀ count ∈ slotCounts sorted, 0 < count :=
  cappedCounts_pos (reducedCounts_pos sorted)

theorem slotCounts_getD_pos (sorted : List WeightedPeer) (position : Nat) :
    0 < (slotCounts sorted).getD position 1 := by
  rw [List.getD_eq_getElem?_getD]
  cases stored : (slotCounts sorted)[position]? with
  | none => exact Nat.one_pos
  | some count => exact slotCounts_pos sorted count (List.mem_of_getElem? stored)

theorem mem_weightedSlots {peers : List WeightedPeer} {peer : String} :
    peer ∈ weightedSlots peers ↔ ∃ each ∈ peers, each.peer = peer := by
  simp only [weightedSlots, List.mem_map, List.mem_mergeSort, slotMarks,
    List.mem_flatMap, List.mem_range]
  constructor
  · rintro ⟨mark, ⟨⟨each, position⟩, place, copy, -, rfl⟩, rfl⟩
    have member := (List.mem_zipIdx' place).2
    exact ⟨each, mem_sortedBy.mp (member ▸ List.getElem_mem _), rfl⟩
  · rintro ⟨each, member, rfl⟩
    obtain ⟨position, bound, here⟩ :=
      List.mem_iff_getElem.mp
        ((@mem_sortedBy _ WeightedPeer.peer peers each).mpr member)
    have place : (each, position) ∈ (sortedBy WeightedPeer.peer peers).zipIdx :=
      List.mk_mem_zipIdx_iff_getElem?.mpr (by rw [List.getElem?_eq_getElem bound, here])
    exact ⟨_, ⟨(each, position), place, 0, slotCounts_getD_pos _ position, rfl⟩, rfl⟩

/-! ## Slot lists -/

def peerOf (host : String) (port : Nat) : String := s!"{host}:{port}"

def peerOfBackend (backend : Backend) : String :=
  peerOf backend.host backend.port

def planeOf (pool : Pool) : Plane :=
  if pool.protocolClass = .http then .http else .stream

def attrsOfBackend (backend : Backend) : PeerAttrs :=
  { softMaxConns := backend.softMaxConns
    isBackup := backend.isBackup }

def peersOf (used : Model) (poolKey : String) : List WeightedPeer :=
  (used.backends.filter fun backend => decide (backend.pool = poolKey)).map
    fun backend =>
      { peer := peerOfBackend backend
        weight := backend.weight
        attrs := attrsOfBackend backend }

/-- Upstream name to peers, repeated according to their weights. -/
abbrev Slots := OrderedMap String (List String)

def fileSlots
    (digest : String → String) (conf : String) (used : Model) (plane : Plane)
    (slots : Slots) (pool : Pool) : Slots :=
  let peers := peersOf used pool.key
  if peers = [] then slots
  else
    match upstreamNameIn digest conf pool.key with
    | none => slots
    | some name =>
        if planeOf pool = plane then slots.set name (weightedSlots peers) else slots

def slotsOf
    (renderer : Renderer) (model : Model) (intake : Option DiscoveryIntake)
    (plane : Plane) : Slots :=
  let used := applyDiscoveredEndpoints model intake
  used.pools.foldl
    (fileSlots renderer.digest (renderer.conf model) used plane) OrderedMap.empty

def slotsForEligible
    (renderer : Renderer) (head eligible : Model) (intake : Option DiscoveryIntake)
    (plane : Plane) : Slots :=
  let allowed := eligible.backends.map peerOfBackend
  (slotsOf renderer head intake plane).mapValues fun peers =>
    peers.filter fun peer => decide (peer ∈ allowed)

end Control

end Barycenter
