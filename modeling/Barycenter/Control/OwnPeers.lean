import Barycenter.Control.BackendStatus
import Barycenter.Store.Shown

/-!
# The slots and the attributes of a pool's own backends

Whether a backend may be used is decided by its key, and the slot lists are
filtered by the addresses of all backends that may be used, whatever their pool.
The attributes of a backend are looked up by its address in the same way.  A
pool is served by its own backends alone exactly when nothing of another pool
stands at their addresses that would answer differently.
-/

namespace Barycenter.Control

open Config
open Dp (Plane)

/-! ## Attributes -/

abbrev Attrs := OrderedMap String (OrderedMap String PeerAttrs)

def PeerAttrs.isEmpty (attrs : PeerAttrs) : Bool :=
  attrs.softMaxConns.isNone && attrs.isBackup.isNone

/-- The attributes at every address: a later backend overwrites an earlier one. -/
def attrsByPeer (backends : List Backend) : OrderedMap String PeerAttrs :=
  backends.foldl
    (fun byPeer backend =>
      if (attrsOfBackend backend).isEmpty then byPeer
      else byPeer.set (peerOfBackend backend) (attrsOfBackend backend))
    .empty

/-- The attributes of the peers that stand in a slot list. -/
def attrsHere (byPeer : OrderedMap String PeerAttrs) (peers : List String) :
    OrderedMap String PeerAttrs :=
  peers.eraseDups.foldl
    (fun here peer =>
      match byPeer.get? peer with
      | some attrs => here.set peer attrs
      | none => here)
    .empty

def attrsOf (renderer : Renderer) (model : Model) (intake : Option DiscoveryIntake)
    (plane : Plane) : Attrs :=
  let byPeer := attrsByPeer (applyDiscoveredEndpoints model intake).backends
  ((slotsOf renderer model intake plane).mapValues (attrsHere byPeer)).filterValues
    fun here => !here.entries.isEmpty

/-- What a plane has been given for a peer of an upstream. -/
def attrsGiven (attrs : Attrs) (name peer : String) : PeerAttrs :=
  (((attrs.get? name).bind fun here => here.get? peer)).getD
    { softMaxConns := none, isBackup := none }

/-! ## What the attributes say -/

def lastWithAttrs (backends : List Backend) (peer : String) : Option Backend :=
  backends.reverse.find? fun backend =>
    decide (peerOfBackend backend = peer) && !(attrsOfBackend backend).isEmpty

theorem attrsByPeer_get? (backends : List Backend) (peer : String) :
    (attrsByPeer backends).get? peer = (lastWithAttrs backends peer).map attrsOfBackend := by
  induction backends using List.reverseRecOn with
  | nil => rfl
  | append_singleton earlier backend induction =>
      have step : attrsByPeer (earlier ++ [backend]) =
          if (attrsOfBackend backend).isEmpty then attrsByPeer earlier
          else (attrsByPeer earlier).set (peerOfBackend backend) (attrsOfBackend backend) := by
        simp [attrsByPeer]
      rw [step, lastWithAttrs, List.reverse_append, List.reverse_singleton,
        List.singleton_append, List.find?_cons]
      by_cases blank : (attrsOfBackend backend).isEmpty = true
      · simpa [blank, lastWithAttrs] using induction
      · by_cases same : peerOfBackend backend = peer
        · simp [blank, same]
        · simpa [blank, same, OrderedMap.get?_set_other, lastWithAttrs] using induction

theorem attrsHere_get? (byPeer : OrderedMap String PeerAttrs) (peers : List String)
    (peer : String) :
    (attrsHere byPeer peers).get? peer = if peer ∈ peers then byPeer.get? peer else none := by
  have folded (seen : List String) :
      (seen.foldl
        (fun here peer =>
          match byPeer.get? peer with
          | some attrs => here.set peer attrs
          | none => here)
        (OrderedMap.empty : OrderedMap String PeerAttrs)).get? peer =
        if peer ∈ seen then byPeer.get? peer else none := by
    induction seen using List.reverseRecOn with
    | nil => simp
    | append_singleton earlier newest induction =>
        rw [List.foldl_append, List.foldl_cons, List.foldl_nil]
        by_cases same : newest = peer
        · subst same
          cases found : byPeer.get? newest with
          | none => simp [found, induction]
          | some attrs => simp
        · cases found : byPeer.get? newest with
          | none => simp [induction, Ne.symm same]
          | some attrs => simp [OrderedMap.get?_set_other _ _ same, induction, Ne.symm same]
  rw [attrsHere, folded]
  simp only [List.mem_eraseDups]

/-- A peer is given the attributes of its address when it stands in the slot
list of the name. -/
theorem attrsGiven_attrsOf (renderer : Renderer) (model : Model)
    (intake : Option DiscoveryIntake) (plane : Plane) (name peer : String) :
    attrsGiven (attrsOf renderer model intake plane) name peer =
      match (slotsOf renderer model intake plane).get? name with
      | some peers =>
          if peer ∈ peers then
            ((lastWithAttrs (applyDiscoveredEndpoints model intake).backends peer).map
              attrsOfBackend).getD { softMaxConns := none, isBackup := none }
          else { softMaxConns := none, isBackup := none }
      | none => { softMaxConns := none, isBackup := none } := by
  rw [attrsGiven, attrsOf, OrderedMap.get?_filterValues, OrderedMap.get?_mapValues]
  cases listed : (slotsOf renderer model intake plane).get? name with
  | none => rfl
  | some peers =>
      simp only [Option.map_some, Option.filter_some]
      have found := attrsHere_get?
        (attrsByPeer (applyDiscoveredEndpoints model intake).backends) peers peer
      rw [attrsByPeer_get?] at found
      by_cases empty : (attrsHere (attrsByPeer (applyDiscoveredEndpoints model intake).backends)
          peers).entries.isEmpty = true
      · have nothing : (attrsHere (attrsByPeer (applyDiscoveredEndpoints model intake).backends)
            peers).get? peer = none := by
          rw [OrderedMap.get?, List.isEmpty_iff.mp empty]
          rfl
        rw [nothing] at found
        rw [if_neg (by simp [empty])]
        split
        · rename_i member
          rw [if_pos member] at found
          rw [← found]
          rfl
        · rfl
      · rw [if_pos (by simpa using empty)]
        simp only [Option.bind_some, found]
        split <;> rfl

/-! ## Pools that are served by their own backends -/

section

variable (renderer : Renderer) (model : Model) (verdicts : Verdicts)
  (intake : Option DiscoveryIntake)

def ServesAt (poolKey peer : String) : Prop :=
  ∃ own ∈ (applyDiscoveredEndpoints model intake).backends,
    own.pool = poolKey ∧ peerOfBackend own = peer

/-- Some backend of the pool that is neither unhealthy nor draining is at the
address. -/
def SparedAt (poolKey peer : String) : Prop :=
  ∃ own ∈ (applyDiscoveredEndpoints model intake).backends,
    own.pool = poolKey ∧ verdicts.spares own = true ∧ peerOfBackend own = peer

/-- The slot list under the name of a pool holds the addresses of the pool's own
backends that may be used, and its peers are given their own attributes. -/
structure OwnAlone (pool : Pool) : Prop where
  slots : ∀ peers,
    (slotsForEligible renderer model (eligibleWithDiscovery model verdicts intake) intake
      (planeOf pool)).get? (upstreamName renderer.digest pool.key) = some peers →
    ∀ peer, peer ∈ peers ↔ SparedAt model verdicts intake pool.key peer
  attrs : ∀ peers,
    (slotsOf renderer model intake (planeOf pool)).get?
      (upstreamName renderer.digest pool.key) = some peers →
    ∀ own ∈ (applyDiscoveredEndpoints model intake).backends, own.pool = pool.key →
      ∃ same ∈ (applyDiscoveredEndpoints model intake).backends,
        same.pool = pool.key ∧ peerOfBackend same = peerOfBackend own ∧
          attrsGiven (attrsOf renderer model intake (planeOf pool))
            (upstreamName renderer.digest pool.key) (peerOfBackend own) = attrsOfBackend same

/-- Nothing of another pool answers for a pool: `holder` is the pool whose list
stands under its name, mostly itself. -/
structure ApartFrom (holder pool : Pool) : Prop where
  name : ∀ peer, SparedAt model verdicts intake holder.key peer ↔
    SparedAt model verdicts intake pool.key peer
  address : ∀ excluded ∈ (applyDiscoveredEndpoints model intake).backends,
    excluded.pool = holder.key → verdicts.spares excluded = false →
    ∀ other ∈ (applyDiscoveredEndpoints model intake).backends,
      verdicts.spares other = true → peerOfBackend other = peerOfBackend excluded →
        SparedAt model verdicts intake holder.key (peerOfBackend excluded)
  attrs : ∀ own ∈ (applyDiscoveredEndpoints model intake).backends, own.pool = pool.key →
    ServesAt model intake holder.key (peerOfBackend own) →
    ∀ last, lastWithAttrs (applyDiscoveredEndpoints model intake).backends (peerOfBackend own) =
        some last →
      ∃ same ∈ (applyDiscoveredEndpoints model intake).backends,
        same.pool = pool.key ∧ peerOfBackend same = peerOfBackend own ∧
          attrsOfBackend same = attrsOfBackend last
  lost : ∀ own ∈ (applyDiscoveredEndpoints model intake).backends, own.pool = pool.key →
    ¬ServesAt model intake holder.key (peerOfBackend own) →
      ∃ same ∈ (applyDiscoveredEndpoints model intake).backends,
        same.pool = pool.key ∧ peerOfBackend same = peerOfBackend own ∧
          (attrsOfBackend same).isEmpty = true

/-- Every pool with an upstream in the configuration is apart from the others. -/
def PoolsApart : Prop :=
  ∀ pool ∈ model.pools,
    Text.includes (renderer.conf model)
      ("upstream " ++ upstreamName renderer.digest pool.key ++ " \x7b") = true →
    ∀ holder, slotHolder renderer model intake pool = some holder →
      ApartFrom model verdicts intake holder pool

end

section

variable {renderer : Renderer} {model : Model} {verdicts : Verdicts}
  {intake : Option DiscoveryIntake} {pool holder : Pool}

theorem slotHolder_spec (held : slotHolder renderer model intake pool = some holder) :
    holder ∈ model.pools ∧ planeOf holder = planeOf pool ∧
      upstreamName renderer.digest holder.key = upstreamName renderer.digest pool.key := by
  have chosen := List.find?_some held
  simp only [Bool.and_eq_true, decide_eq_true_eq] at chosen
  exact ⟨List.mem_reverse.mp (List.mem_of_find?_eq_some held), chosen.1.1, chosen.1.2⟩

theorem slotHolder_self (held : slotHolder renderer model intake pool = some holder) :
    slotHolder renderer model intake holder = some holder := by
  obtain ⟨-, plane, name⟩ := slotHolder_spec held
  rw [← held]
  simp only [slotHolder, plane, name]

variable {peer : String}

theorem mem_held :
    peer ∈ weightedSlots (peersOf (applyDiscoveredEndpoints model intake) holder.key) ↔
      ServesAt model intake holder.key peer := by
  rw [mem_weightedSlots, mem_peersOf, ServesAt]

/-- The pushed list of a pool is what its holder serves, at the addresses at
which any backend may be used. -/
theorem pushed_iff {peers : List String}
    (pushed : (slotsForEligible renderer model (eligibleWithDiscovery model verdicts intake)
      intake (planeOf pool)).get? (upstreamName renderer.digest pool.key) = some peers) :
    Text.includes (renderer.conf model)
        ("upstream " ++ upstreamName renderer.digest pool.key ++ " \x7b") = true ∧
      ∃ holder, slotHolder renderer model intake pool = some holder ∧
        ∀ peer, peer ∈ peers ↔ ServesAt model intake holder.key peer ∧
          ∃ other ∈ (applyDiscoveredEndpoints model intake).backends,
            verdicts.spares other = true ∧ peerOfBackend other = peer := by
  simp only [slotsForEligible, OrderedMap.get?_mapValues, slotsOf_get?] at pushed
  split at pushed
  · rename_i included
    simp only [Option.map_map, Option.map_eq_some_iff, Function.comp_apply] at pushed
    obtain ⟨holder, held, rfl⟩ := pushed
    refine ⟨included, holder, held, fun peer => ?_⟩
    rw [List.mem_filter, decide_eq_true_eq, eligible_peer, mem_held]
  · cases pushed

theorem listed_iff {peers : List String} :
    (slotsOf renderer model intake (planeOf pool)).get?
        (upstreamName renderer.digest pool.key) = some peers ↔
      Text.includes (renderer.conf model)
          ("upstream " ++ upstreamName renderer.digest pool.key ++ " \x7b") = true ∧
        ∃ holder, slotHolder renderer model intake pool = some holder ∧
          weightedSlots (peersOf (applyDiscoveredEndpoints model intake) holder.key) = peers := by
  rw [slotsOf_get?]
  split
  · rename_i included
    simp [included]
  · rename_i excluded
    simp [excluded]

theorem PeerAttrs.isEmpty_iff {attrs : PeerAttrs} :
    attrs.isEmpty = true ↔ attrs = { softMaxConns := none, isBackup := none } := by
  obtain ⟨softMaxConns, isBackup⟩ := attrs
  simp [PeerAttrs.isEmpty]

theorem empty_of_lastWithAttrs {backends : List Backend}
    (none : lastWithAttrs backends peer = none) {backend : Backend} (member : backend ∈ backends)
    (there : peerOfBackend backend = peer) : (attrsOfBackend backend).isEmpty = true := by
  have missed := List.find?_eq_none.mp none backend (List.mem_reverse.mpr member)
  simpa [there] using missed

theorem attrsGiven_held (included : Text.includes (renderer.conf model)
      ("upstream " ++ upstreamName renderer.digest pool.key ++ " \x7b") = true)
    (held : slotHolder renderer model intake pool = some holder) :
    (ServesAt model intake holder.key peer →
      attrsGiven (attrsOf renderer model intake (planeOf pool))
          (upstreamName renderer.digest pool.key) peer =
        ((lastWithAttrs (applyDiscoveredEndpoints model intake).backends peer).map
          attrsOfBackend).getD { softMaxConns := none, isBackup := none }) ∧
      (¬ServesAt model intake holder.key peer →
        attrsGiven (attrsOf renderer model intake (planeOf pool))
          (upstreamName renderer.digest pool.key) peer =
            { softMaxConns := none, isBackup := none }) := by
  have listed := (@listed_iff renderer model intake pool _).mpr ⟨included, holder, held, rfl⟩
  rw [attrsGiven_attrsOf, listed, ← mem_held]
  constructor
  · intro member
    exact if_pos member
  · intro absent
    exact if_neg absent

/-- What a pool serves is what it may use exactly when no excluded backend of it
shares its address with one that may be used. -/
theorem own_iff_address :
    (∀ peer, (ServesAt model intake pool.key peer ∧
      ∃ other ∈ (applyDiscoveredEndpoints model intake).backends,
        verdicts.spares other = true ∧ peerOfBackend other = peer) ↔
          SparedAt model verdicts intake pool.key peer) ↔
      ∀ excluded ∈ (applyDiscoveredEndpoints model intake).backends,
        excluded.pool = pool.key → verdicts.spares excluded = false →
        ∀ other ∈ (applyDiscoveredEndpoints model intake).backends,
          verdicts.spares other = true → peerOfBackend other = peerOfBackend excluded →
            SparedAt model verdicts intake pool.key (peerOfBackend excluded) := by
  constructor
  · intro own excluded member inPool _ other otherMember spared same
    exact (own _).mp ⟨⟨excluded, member, inPool, rfl⟩, other, otherMember, spared, same⟩
  · intro address peer
    constructor
    · rintro ⟨⟨own, member, inPool, rfl⟩, other, otherMember, spared, same⟩
      cases verdict : verdicts.spares own with
      | true => exact ⟨own, member, inPool, verdict, rfl⟩
      | false => exact address own member inPool verdict other otherMember spared same
    · rintro ⟨own, member, inPool, spared, rfl⟩
      exact ⟨⟨own, member, inPool, rfl⟩, own, member, spared, rfl⟩

/-- With no other pool's backends in between, the list and the attributes of a
pool are those of its own backends. -/
theorem ApartFrom.ownAlone (apart : ApartFrom model verdicts intake holder pool)
    (included : Text.includes (renderer.conf model)
      ("upstream " ++ upstreamName renderer.digest pool.key ++ " \x7b") = true)
    (held : slotHolder renderer model intake pool = some holder) :
    OwnAlone renderer model verdicts intake pool := by
  refine ⟨?_, ?_⟩
  · intro peers pushed peer
    obtain ⟨-, other, otherHeld, listed⟩ := pushed_iff pushed
    cases Option.some.inj (held.symm.trans otherHeld)
    rw [listed, own_iff_address.mpr apart.address, apart.name]
  · intro peers _ own member inPool
    obtain ⟨served, lost⟩ :=
      @attrsGiven_held renderer model intake pool holder (peerOfBackend own) included held
    by_cases serves : ServesAt model intake holder.key (peerOfBackend own)
    · rw [served serves]
      cases found : lastWithAttrs (applyDiscoveredEndpoints model intake).backends
          (peerOfBackend own) with
      | some last =>
          obtain ⟨same, sameMember, samePool, there, equal⟩ :=
            apart.attrs own member inPool serves last found
          exact ⟨same, sameMember, samePool, there, equal.symm⟩
      | none =>
          have blank := PeerAttrs.isEmpty_iff.mp (empty_of_lastWithAttrs found member rfl)
          exact ⟨own, member, inPool, rfl, blank.symm⟩
    · rw [lost serves]
      obtain ⟨same, sameMember, samePool, there, blank⟩ := apart.lost own member inPool serves
      exact ⟨same, sameMember, samePool, there, (PeerAttrs.isEmpty_iff.mp blank).symm⟩

/-- A pool that is served by its own backends alone, and whose holder is too, is
apart from its holder. -/
theorem OwnAlone.apartFrom (alone : OwnAlone renderer model verdicts intake pool)
    (holderAlone : OwnAlone renderer model verdicts intake holder)
    (included : Text.includes (renderer.conf model)
      ("upstream " ++ upstreamName renderer.digest pool.key ++ " \x7b") = true)
    (held : slotHolder renderer model intake pool = some holder) :
    ApartFrom model verdicts intake holder pool := by
  obtain ⟨-, plane, name⟩ := slotHolder_spec held
  have pushedAs : ∀ pool : Pool, Text.includes (renderer.conf model)
      ("upstream " ++ upstreamName renderer.digest pool.key ++ " \x7b") = true →
      slotHolder renderer model intake pool = some holder →
      OwnAlone renderer model verdicts intake pool →
      ∀ peer, (ServesAt model intake holder.key peer ∧
        ∃ other ∈ (applyDiscoveredEndpoints model intake).backends,
          verdicts.spares other = true ∧ peerOfBackend other = peer) ↔
            SparedAt model verdicts intake pool.key peer := by
    intro pool included held alone peer
    have listed := (@listed_iff renderer model intake pool _).mpr ⟨included, holder, held, rfl⟩
    have pushed : ∃ peers, (slotsForEligible renderer model
        (eligibleWithDiscovery model verdicts intake) intake (planeOf pool)).get?
          (upstreamName renderer.digest pool.key) = some peers := by
      simp [slotsForEligible, OrderedMap.get?_mapValues, listed]
    obtain ⟨peers, pushed⟩ := pushed
    obtain ⟨-, other, otherHeld, same⟩ := pushed_iff pushed
    cases Option.some.inj (held.symm.trans otherHeld)
    rw [← same, alone.slots peers pushed]
  have byHolder := pushedAs holder (name ▸ included) (slotHolder_self held) holderAlone
  have byPool := pushedAs pool included held alone
  have listed := (@listed_iff renderer model intake pool _).mpr ⟨included, holder, held, rfl⟩
  refine ⟨fun peer => (byHolder peer).symm.trans (byPool peer), own_iff_address.mp byHolder,
    ?_, ?_⟩
  · intro own member inPool serves last found
    obtain ⟨same, sameMember, samePool, there, given⟩ := alone.attrs _ listed own member inPool
    rw [(attrsGiven_held included held).1 serves, found] at given
    exact ⟨same, sameMember, samePool, there, given.symm⟩
  · intro own member inPool absent
    obtain ⟨same, sameMember, samePool, there, given⟩ := alone.attrs _ listed own member inPool
    rw [(attrsGiven_held included held).2 absent] at given
    exact ⟨same, sameMember, samePool, there, PeerAttrs.isEmpty_iff.mpr given.symm⟩

end

/-- For every model, every health map, every drain set and every discovery
result, each pool is served by its own backends alone exactly when nothing of
another pool answers at their addresses or under its name. -/
theorem slots_of_own_backends_iff (renderer : Renderer) (model : Model) (verdicts : Verdicts)
    (intake : Option DiscoveryIntake) :
    (∀ pool ∈ model.pools, OwnAlone renderer model verdicts intake pool) ↔
      PoolsApart renderer model verdicts intake := by
  constructor
  · intro alone pool member included holder held
    have holderMember := (slotHolder_spec held).1
    exact (alone pool member).apartFrom (alone holder holderMember) included held
  · intro apart pool member
    by_cases listed : ∃ peers, (slotsOf renderer model intake (planeOf pool)).get?
        (upstreamName renderer.digest pool.key) = some peers
    · obtain ⟨peers, listed⟩ := listed
      obtain ⟨included, holder, held, -⟩ := listed_iff.mp listed
      exact (apart pool member included holder held).ownAlone included held
    · refine ⟨fun peers pushed => ?_, fun peers found => absurd ⟨peers, found⟩ listed⟩
      obtain ⟨included, holder, held, -⟩ := pushed_iff pushed
      exact absurd ⟨_, listed_iff.mpr ⟨included, holder, held, rfl⟩⟩ listed

/-- The draining backend of one pool is kept in its slot list by the backend of
another pool at its address. -/
theorem draining_twin_stays :
    ¬∀ pool ∈ twinModel.pools, OwnAlone twinRenderer twinModel twinVerdicts none pool := by
  intro alone
  let pool : Pool := { key := "app", protocolClass := .http, algorithm := .roundRobin }
  have pushed : (slotsForEligible twinRenderer twinModel
      (eligibleWithDiscovery twinModel twinVerdicts none) none (planeOf pool)).get?
        (upstreamName twinRenderer.digest pool.key) = some ["10.0.0.1:80"] := by
    decide +kernel
  have member : "10.0.0.1:80" ∈ ["10.0.0.1:80"] := List.mem_singleton_self _
  obtain ⟨own, present, inPool, spared, -⟩ :=
    ((alone pool (by decide)).slots _ pushed "10.0.0.1:80").mp member
  have drained : ∀ own ∈ twinModel.backends, own.pool = "app" →
      twinVerdicts.spares own = false := by
    decide
  rw [drained own present inPool] at spared
  cases spared

end Barycenter.Control
