import Barycenter.Control.Engine
import Barycenter.Control.PlanTables

/-!
# The two paths of an apply

An apply takes the head only.  When the plan renders to the digest that the plan
of the active operation was stored with, the apply moves membership on the
planes that are at the epoch of that operation; otherwise it makes a generation
and switches to it.  The short path serves what the long one would exactly when
what it leaves alone is already right: the bytes and the files of the loaded
generation, and the slots of every pool that the push does not reach.
-/

namespace Barycenter.Control

open Config
open Dp (AgentState ApplyOperation Plane PerPlane PublishedState serial tupleFor)
open Validate (bindTransitionConflicts)

/-- The store, the knowledge about backends, this node's part in the election
and its data plane. -/
structure Site where
  head : Nat
  modelAt : Nat → Model
  plans : List PlanEntry
  operations : List OperationEntry
  verdicts : Verdicts
  intake : Option DiscoveryIntake
  leaderToken : Option Nat
  directories : OrderedMap String Generation
  agent : AgentState
  published : PublishedState
  engine : Engine

/-! ## Which path -/

inductive ApplyChoice where
  | existing (entry : OperationEntry)
  | refused (code : String)
  | membershipOnly (plan : PlanEntry) (revision live : Nat)
  | generation (plan : PlanEntry) (revision epoch : Nat)
deriving DecidableEq, Repr

def usesMembership (plant : Plant) : Bool := plant.lua.http || plant.lua.stream

def blockedBinds (plant : Plant) (site : Site) (plan : PlanEntry) (revision : Nat) : Bool :=
  match activeRevision site.operations with
  | none => false
  | some active =>
      decide (active ≠ revision) &&
        decide (bindTransitionConflicts plant.platform (site.modelAt active).listeners
          plan.model.listeners ≠ [])

def chooseApply (plant : Plant) (site : Site) (planId : String) : ApplyChoice :=
  match operationOfPlan site.operations planId with
  | some entry => .existing entry
  | none =>
      match planWithId site.plans planId with
      | none => .refused "unknown_plan"
      | some plan =>
          if plan.state = .planned then .refused "not_committed"
          else
            match plan.targetRevision, plan.activationEpoch with
            | some revision, some epoch =>
                if revision ≠ site.head then .refused "PLAN_STALE"
                else if blockedBinds plant site plan revision then .refused "bind_transition"
                else
                  match
                    if usesMembership plant then
                      activeRenderDigest site.plans site.operations
                    else none with
                  | some (digest, live) =>
                      if digest = plant.sha256 (plant.renderer.conf plan.model) then
                        .membershipOnly plan revision live
                      else .generation plan revision epoch
                  | none => .generation plan revision epoch
            | _, _ => .refused "not_reserved"

def Site.eligible (site : Site) (model : Model) : Model :=
  eligibleWithDiscovery model site.verdicts site.intake

def Site.membership (plant : Plant) (site : Site) (model : Model) : PerPlane Slots where
  http := slotsForEligible plant.renderer model (site.eligible model) site.intake .http
  stream := slotsForEligible plant.renderer model (site.eligible model) site.intake .stream

/-! ## Membership only -/

/-- Move the membership of one plane: the coordinate first, then the slots. -/
def applyMembership (plant : Plant) (op : ApplyOperation) (epoch : Nat)
    (slots : PerPlane Slots) (node : AgentState × Engine) (plane : Plane) :
    Option (AgentState × Engine) :=
  match tupleFor op plane with
  | .error _ => none
  | .ok tuple =>
      match serial (.applyHealth tuple) node.1 with
      | .error _ => none
      | .ok (_, agent) =>
          match node.2.push plant plane epoch (slots.get plane) with
          | (engine, true) => some (agent, engine)
          | (_, false) => none

def membershipRequest (plant : Plant) (site : Site) (plan : PlanEntry) (revision live : Nat)
    (leaderToken : Nat) : MembershipRequest where
  planId := plan.id
  revision := toString revision
  epoch := live
  slots := site.membership plant plan.model
  leaderToken := leaderToken

def applyMembershipOnly (plant : Plant) (site : Site) (plan : PlanEntry) (revision live : Nat)
    (operationId : String) : Option Site := do
  let leaderToken ← site.leaderToken
  let request := membershipRequest plant site plan revision live leaderToken
  let touched := request.touched site.agent
  if touched = [] then none
  else
    let op := request.operationOf operationId site.agent site.published
    let (agent, engine) ←
      touched.foldlM (applyMembership plant op live request.slots) (site.agent, site.engine)
    return { site with
      agent := agent
      engine := engine
      operations := site.operations ++
        [{ id := operationId, planId := plan.id, revision := revision, activationEpoch := live,
           generation := op.targetGeneration, phase := .ended .activated }]
      plans := site.plans.map fun other =>
        if other.id = plan.id then { other with state := .applied } else other }

/-! ## A generation -/

def buildGeneration (plant : Plant) (site : Site) (model : Model) (name : String)
    (epoch : Nat) : Option Generation := do
  let certificates ← certificateFiles plant model
  let generation :=
    { name := name
      epoch := epoch
      conf := plant.renderer.conf model
      certificates := certificates
      membership :=
        if usesMembership plant then some (site.membership plant model) else none }
  -- `generation_conflict`: a directory of this name with other bytes stands already
  if (site.directories.get? name).any fun other => decide (other ≠ generation) then none
  else return generation

/-- Either there is something to write, or nobody is eligible and that is meant. -/
def shouldPushMembership (eligibleCount slotCount : Nat) : Bool :=
  decide (0 < slotCount) || decide (eligibleCount = 0)

def eligibleCountForPlane (model : Model) (plane : Plane) : Nat :=
  (model.backends.filter fun backend =>
    match model.pools.find? fun pool => decide (pool.key = backend.pool) with
    | none => false
    | some pool => decide (planeOf pool = plane)).length

/-- The first plane that fails ends the projection, and what it has written
stays. -/
def projectPlane (plant : Plant) (site : Site) (model : Model) (epoch : Nat)
    (state : Engine × Bool) (plane : Plane) : Engine × Bool :=
  let slots := (site.membership plant model).get plane
  if state.2 &&
      shouldPushMembership (eligibleCountForPlane (site.eligible model) plane)
        slots.keys.length then
    state.1.push plant plane epoch slots
  else state

/-- Right after an activation, when both planes are at its epoch. -/
def projectHealth (plant : Plant) (site : Site) (model : Model) (epoch : Nat)
    (engine : Engine) : Engine :=
  if usesMembership plant then
    (Plane.all.foldl (projectPlane plant site model epoch) (engine, true)).1
  else engine

/-- The engine after an apply over a generation that ends activated. -/
def applyGeneration (plant : Plant) (site : Site) (plan : PlanEntry) (revision epoch : Nat) :
    Option Engine := do
  let generation ←
    buildGeneration plant site plan.model (generationName revision epoch) epoch
  let engine ← site.engine.switchTo plant generation
  return projectHealth plant site plan.model epoch engine

/-! ## What the short path leaves -/

variable {plant : Plant} {site : Site} {plan : PlanEntry}

/-- The peers a plan wants under a name, with their addresses. -/
def Site.wanted (plant : Plant) (site : Site) (model : Model) (plane : Plane) (name : String) :
    Option (List String) :=
  (resolveSlots plant.lookupPeer ((site.membership plant model).get plane)).get? name

variable {epoch : Nat}

theorem applyMembership_engine {op : ApplyOperation} {slots : PerPlane Slots}
    {before after : AgentState × Engine} {plane : Plane}
    (moved : applyMembership plant op epoch slots before plane = some after) :
    before.2.push plant plane epoch (slots.get plane) = (after.2, true) := by
  unfold applyMembership at moved
  split at moved
  · cases moved
  · split at moved
    · cases moved
    · split at moved
      · next pushed =>
          cases moved
          exact pushed
      · cases moved

variable {planes : List Plane}

/-- Every plane that was walked has its slots and no others at the epoch, and
nothing else has changed. -/
theorem walk_engine {op : ApplyOperation} {slots : PerPlane Slots} (distinct : planes.Nodup)
    {before after : AgentState × Engine}
    (walked : planes.foldlM (applyMembership plant op epoch slots) before = some after) :
    after.2.loaded = before.2.loaded ∧
      (∀ plane, (after.2.dicts.get plane).attrs = (before.2.dicts.get plane).attrs) ∧
      (∀ plane ∈ planes, ∀ name, after.2.entry plane name epoch =
        (resolveSlots plant.lookupPeer (slots.get plane)).get? name) ∧
      ∀ plane name stage, plane ∉ planes ∨ stage ≠ epoch →
        after.2.entry plane name stage = before.2.entry plane name stage := by
  induction planes generalizing before with
  | nil =>
      cases walked
      simp
  | cons plane rest induction =>
      rw [List.foldlM_cons] at walked
      obtain ⟨middle, moved, later⟩ := Option.bind_eq_some_iff.mp walked
      obtain ⟨fresh, restDistinct⟩ := List.nodup_cons.mp distinct
      obtain ⟨loaded, attrs, reached, kept⟩ := induction restDistinct later
      have pushed := applyMembership_engine moved
      have answers := Engine.push_answers pushed
      have here := congrArg Prod.fst pushed
      refine ⟨?_, fun other => ?_, fun other inside name => ?_, fun other name stage apart => ?_⟩
      · rw [loaded, ← Engine.push_loaded plane epoch (slots.get plane) before.2, here]
      · rw [attrs, ← Engine.push_attrs plane other epoch (slots.get plane) before.2, here]
      · rcases List.mem_cons.mp inside with rfl | old
        · rw [kept other name epoch (.inl fresh)]
          exact Engine.push_exact pushed name
        · exact reached other old name
      · have outside : other ∉ rest ∨ stage ≠ epoch :=
          apart.imp (fun absent inside => absent (List.mem_cons_of_mem _ inside)) id
        have elsewhere : ¬(other = plane ∧ stage = epoch) := by
          rintro ⟨rfl, same⟩
          exact apart.elim (fun absent => absent List.mem_cons_self) (fun other => other same)
        have result := Engine.push_entry answers epoch (slots.get plane) before.2 other name stage
        rw [here, if_neg elsewhere] at result
        rw [kept other name stage outside, result]

/-- The plane is at the epoch that is moved, and the plan has slots for it. -/
def Site.Moves (plant : Plant) (site : Site) (plan : PlanEntry) (live : Nat)
    (plane : Plane) : Prop :=
  (site.agent.planes.get plane).activationEpoch = live ∧
    ((site.membership plant plan.model).get plane).keys ≠ []

theorem mem_touched {revision live leaderToken : Nat} {plane : Plane} :
    plane ∈ (membershipRequest plant site plan revision live leaderToken).touched site.agent ↔
      site.Moves plant plan live plane := by
  simp [MembershipRequest.touched, membershipRequest, Site.Moves]

theorem touched_nodup (request : MembershipRequest) (s : AgentState) :
    (request.touched s).Nodup :=
  List.Nodup.filter _ (by decide)

/-- The loaded generation stays, the planes that move have exactly the slots of
the plan at the epoch, and nothing else changes. -/
theorem applyMembershipOnly_engine {revision live : Nat} {operationId : String} {after : Site}
    (done : applyMembershipOnly plant site plan revision live operationId = some after) :
    after.engine.loaded = site.engine.loaded ∧
      (∀ plane, (after.engine.dicts.get plane).attrs = (site.engine.dicts.get plane).attrs) ∧
      (∀ plane, site.Moves plant plan live plane → ∀ name,
        after.engine.entry plane name live = site.wanted plant plan.model plane name) ∧
      ∀ plane name stage, ¬site.Moves plant plan live plane ∨ stage ≠ live →
        after.engine.entry plane name stage = site.engine.entry plane name stage := by
  unfold applyMembershipOnly at done
  obtain ⟨leaderToken, -, rest⟩ := Option.bind_eq_some_iff.mp done
  simp only at rest
  split at rest
  · cases rest
  · obtain ⟨⟨agent, engine⟩, walked, ended⟩ := Option.bind_eq_some_iff.mp rest
    cases ended
    obtain ⟨loaded, attrs, reached, kept⟩ := walk_engine (touched_nodup _ _) walked
    exact ⟨loaded, attrs, fun plane moves name => reached plane (mem_touched.mpr moves) name,
      fun plane name stage apart =>
        kept plane name stage (apart.imp (fun still inside => still (mem_touched.mp inside)) id)⟩

/-! ## What the long path leaves -/

/-- The list under a name once the slots of a plan have been put over what
stands at its epoch. -/
def Site.settled (plant : Plant) (site : Site) (plan : PlanEntry) (epoch : Nat) (plane : Plane)
    (name : String) : Option (List String) :=
  (site.wanted plant plan.model plane name).or (site.engine.entry plane name epoch)

theorem wanted_eq_none_of_keys {model : Model} {plane : Plane}
    (empty : ((site.membership plant model).get plane).keys = []) (name : String) :
    site.wanted plant model plane name = none := by
  simp only [Site.wanted, resolveSlots, OrderedMap.get?_mapValues, Option.map_eq_none_iff]
  cases found : ((site.membership plant model).get plane).get? name with
  | none => rfl
  | some peers =>
      have member : name ∈ ((site.membership plant model).get plane).keys :=
        OrderedMap.mem_keys_iff.mpr ⟨peers, found⟩
      rw [empty] at member
      cases member

/-- An engine whose dictionaries have the slots of the plan over what stood at an
epoch on these planes, and are otherwise as they were. -/
structure Site.Settled (plant : Plant) (site : Site) (plan : PlanEntry) (epoch : Nat)
    (planes : List Plane) (engine : Engine) : Prop where
  attrs : ∀ plane, (engine.dicts.get plane).attrs = (site.engine.dicts.get plane).attrs
  entries : ∀ plane name stage, engine.entry plane name stage =
    if plane ∈ planes ∧ stage = epoch then site.settled plant plan epoch plane name
    else site.engine.entry plane name stage

variable {engine : Engine}

theorem Site.Settled.push {plane : Plane} (settled : site.Settled plant plan epoch planes engine)
    (answers : plant.lua.get plane = true) :
    site.Settled plant plan epoch (plane :: planes)
      (engine.push plant plane epoch ((site.membership plant plan.model).get plane)).1 where
  attrs other := by rw [Engine.push_attrs, settled.attrs]
  entries other name stage := by
    rw [Engine.push_entry answers, settled.entries]
    by_cases here : other = plane ∧ stage = epoch
    · obtain ⟨rfl, rfl⟩ := here
      have wanted : (resolveSlots plant.lookupPeer
          ((site.membership plant plan.model).get other)).get? name =
        site.wanted plant plan.model other name := rfl
      simp only [and_self, if_true, wanted, List.mem_cons_self, Site.settled]
      split
      · cases site.wanted plant plan.model other name <;> simp
      · rfl
    · have elsewhere : (other ∈ plane :: planes ∧ stage = epoch) ↔
          (other ∈ planes ∧ stage = epoch) := by
        constructor
        · rintro ⟨inside, same⟩
          rcases List.mem_cons.mp inside with rfl | old
          · exact absurd ⟨rfl, same⟩ here
          · exact ⟨old, same⟩
        · exact fun both => ⟨List.mem_cons_of_mem _ both.1, both.2⟩
      simp only [if_neg here, elsewhere]

variable {generation : Generation}

theorem stageMembership_settled {plane : Plane} {before after : Engine}
    (carried : generation.membership = some (site.membership plant plan.model))
    (settled : site.Settled plant plan generation.epoch planes before)
    (staged : before.stageMembership plant generation plane = some after) :
    site.Settled plant plan generation.epoch (plane :: planes) after ∧
      (((site.membership plant plan.model).get plane).keys ≠ [] → ∀ name,
        after.entry plane name generation.epoch = site.wanted plant plan.model plane name) := by
  simp only [Engine.stageMembership, carried] at staged
  split at staged
  · next empty =>
      cases staged
      have nothing := List.length_eq_zero_iff.mp empty
      refine ⟨⟨settled.attrs, fun other name stage => ?_⟩, fun some => absurd nothing some⟩
      rw [settled.entries]
      by_cases here : other = plane ∧ stage = generation.epoch
      · obtain ⟨rfl, rfl⟩ := here
        simp [Site.settled, wanted_eq_none_of_keys nothing]
      · by_cases same : stage = generation.epoch
        · have apart : other ≠ plane := fun equal => here ⟨equal, same⟩
          simp [apart]
        · simp [same]
  · split at staged
    · next pushed =>
        cases staged
        have next := settled.push (Engine.push_answers pushed)
        rw [pushed] at next
        exact ⟨next, fun _ name => Engine.push_exact pushed name⟩
    · cases staged

theorem projectPlane_settled {state : Engine × Bool} {plane : Plane}
    (settled : site.Settled plant plan epoch Plane.all state.1) :
    site.Settled plant plan epoch Plane.all
        (projectPlane plant site plan.model epoch state plane).1 ∧
      (projectPlane plant site plan.model epoch state plane).1.loaded = state.1.loaded := by
  unfold projectPlane
  simp only
  split
  · refine ⟨?_, Engine.push_loaded ..⟩
    by_cases answers : plant.lua.get plane = true
    · obtain ⟨attrs, entries⟩ := settled.push answers
      exact ⟨attrs, fun other name stage => by simpa using entries other name stage⟩
    · simpa [Engine.push, answers] using settled
  · exact ⟨settled, rfl⟩

theorem projectHealth_settled (settled : site.Settled plant plan epoch Plane.all engine) :
    site.Settled plant plan epoch Plane.all
        (projectHealth plant site plan.model epoch engine) ∧
      (projectHealth plant site plan.model epoch engine).loaded = engine.loaded := by
  unfold projectHealth
  split
  · have onHttp : site.Settled plant plan epoch Plane.all (engine, true).1 := settled
    obtain ⟨first, loaded⟩ := @projectPlane_settled plant site plan epoch _ .http onHttp
    obtain ⟨second, again⟩ := @projectPlane_settled plant site plan epoch _ .stream first
    exact ⟨second, again.trans loaded⟩
  · exact ⟨settled, rfl⟩

theorem switchTo_settled {after : Engine}
    (carried : generation.membership = some (site.membership plant plan.model))
    (switched : site.engine.switchTo plant generation = some after) :
    after.loaded = generation ∧ site.Settled plant plan generation.epoch Plane.all after ∧
      ∀ plane, ((site.membership plant plan.model).get plane).keys ≠ [] → ∀ name,
        site.settled plant plan generation.epoch plane name =
          site.wanted plant plan.model plane name := by
  unfold Engine.switchTo at switched
  obtain ⟨first, http, rest⟩ := Option.bind_eq_some_iff.mp switched
  obtain ⟨second, stream, ended⟩ := Option.bind_eq_some_iff.mp rest
  cases ended
  have start : site.Settled plant plan generation.epoch [] site.engine :=
    ⟨fun _ => rfl, fun _ _ _ => by simp⟩
  obtain ⟨httpSettled, httpExact⟩ := stageMembership_settled carried start http
  obtain ⟨settled, streamExact⟩ := stageMembership_settled carried httpSettled stream
  refine ⟨rfl, ⟨settled.attrs, fun plane name stage => ?_⟩, fun plane filled name => ?_⟩
  · have stands := settled.entries plane name stage
    have both : plane ∈ [Plane.stream, Plane.http] ↔ plane ∈ Plane.all := by
      cases plane <;> simp [Plane.all]
    simp only [both] at stands
    exact stands
  · cases plane with
    | http =>
        rw [← httpExact filled name, httpSettled.entries]
        simp
    | stream =>
        rw [← streamExact filled name, settled.entries]
        simp

theorem buildGeneration_spec {model : Model} {name : String}
    (built : buildGeneration plant site model name epoch = some generation) :
    generation.epoch = epoch ∧ generation.conf = plant.renderer.conf model ∧
      certificateFiles plant model = some generation.certificates ∧
      (usesMembership plant = true →
        generation.membership = some (site.membership plant model)) := by
  unfold buildGeneration at built
  obtain ⟨files, found, rest⟩ := Option.bind_eq_some_iff.mp built
  obtain ⟨-, ended⟩ := Option.ite_none_left_eq_some.mp rest
  cases ended
  exact ⟨rfl, rfl, found, fun lua => if_pos lua⟩

/-- The engine runs the bytes and the files of the plan, and the dictionaries
have the slots of the plan over what stood at its epoch. -/
theorem applyGeneration_engine {revision epoch : Nat} (lua : usesMembership plant = true)
    (done : applyGeneration plant site plan revision epoch = some engine) :
    engine.loaded.epoch = epoch ∧ engine.loaded.conf = plant.renderer.conf plan.model ∧
      certificateFiles plant plan.model = some engine.loaded.certificates ∧
      site.Settled plant plan epoch Plane.all engine ∧
      ∀ plane, ((site.membership plant plan.model).get plane).keys ≠ [] → ∀ name,
        site.settled plant plan epoch plane name =
          site.wanted plant plan.model plane name := by
  unfold applyGeneration at done
  obtain ⟨generation, built, rest⟩ := Option.bind_eq_some_iff.mp done
  obtain ⟨switched, loads, ended⟩ := Option.bind_eq_some_iff.mp rest
  cases ended
  obtain ⟨named, conf, files, carried⟩ := buildGeneration_spec built
  obtain ⟨loaded, settled, exact⟩ := switchTo_settled (carried lua) loads
  subst named
  obtain ⟨projected, same⟩ := projectHealth_settled settled
  rw [same, loaded]
  exact ⟨rfl, conf, files, projected, exact⟩

/-! ## When the paths serve the same -/

/-- What the short path leaves alone is what the long one would make of it: the
loaded generation has the bytes that the running renderer makes of the plan and
the files of its certificates, and every pool with an upstream either is on a
plane that moves, at the epoch of the loaded generation, or has the slots of the
plan already; its peers have the attributes they have at the epoch of the plan. -/
structure Site.AlreadyRight (plant : Plant) (site : Site) (plan : PlanEntry)
    (live epoch : Nat) : Prop where
  conf : site.engine.loaded.conf = plant.renderer.conf plan.model
  certificates : ∀ path, site.engine.loaded.certificates.get? path =
    (certificateFiles plant plan.model).bind fun files => files.get? path
  slots : ∀ pool ∈ plan.model.pools, pool.key ∈ routedPools plant.renderer plan.model →
    (site.Moves plant plan live (planeOf pool) ∧ site.engine.loaded.epoch = live) ∨
      site.engine.slotsServed (planeOf pool) (upstreamName plant.renderer.digest pool.key) =
        (site.settled plant plan epoch (planeOf pool)
          (upstreamName plant.renderer.digest pool.key)).getD []
  attrs : ∀ pool ∈ plan.model.pools, pool.key ∈ routedPools plant.renderer plan.model →
    ∀ peer,
      site.engine.attrsServed (planeOf pool) (upstreamName plant.renderer.digest pool.key) peer =
        (site.engine.dicts.get (planeOf pool)).attrs.get?
          (upstreamName plant.renderer.digest pool.key, peer, epoch)

theorem usesMembership_of_chosen {planId : String} {revision live : Nat}
    (chosen : chooseApply plant site planId = .membershipOnly plan revision live) :
    usesMembership plant = true := by
  unfold chooseApply at chosen
  split at chosen
  · cases chosen
  · split at chosen
    · cases chosen
    · split at chosen
      · cases chosen
      · split at chosen
        · split at chosen
          · cases chosen
          · split at chosen
            · cases chosen
            · split at chosen
              · next found =>
                  split at found
                  · next lua => exact lua
                  · cases found
              · cases chosen
        · cases chosen

/-- Whenever an apply takes the short path and both paths would go through, they
serve the same exactly when what the short path leaves alone is right already. -/
theorem membershipOnly_serves_iff {planId operationId : String} {revision live epoch : Nat}
    {after : Site} {engine : Engine}
    (chosen : chooseApply plant site planId = .membershipOnly plan revision live)
    (short : applyMembershipOnly plant site plan revision live operationId = some after)
    (long : applyGeneration plant site plan revision epoch = some engine) :
    ServesAlike plant plan.model after.engine engine ↔
      site.AlreadyRight plant plan live epoch := by
  obtain ⟨loaded, attrs, moved, kept⟩ := applyMembershipOnly_engine short
  obtain ⟨stage, conf, files, settled, exact⟩ :=
    applyGeneration_engine (usesMembership_of_chosen chosen) long
  have longServes (plane : Plane) (name : String) : engine.slotsServed plane name =
      (site.settled plant plan epoch plane name).getD [] := by
    simp [Engine.slotsServed, stage, settled.entries]
  have shortServes (plane : Plane) (name : String) : after.engine.slotsServed plane name =
      (after.engine.entry plane name site.engine.loaded.epoch).getD [] := by
    rw [Engine.slotsServed, loaded]
  have moving (plane : Plane) (name : String) (moves : site.Moves plant plan live plane)
      (same : site.engine.loaded.epoch = live) :
      after.engine.slotsServed plane name = engine.slotsServed plane name := by
    rw [shortServes, longServes, same, moved plane moves name, exact plane moves.2 name]
  have resting (plane : Plane) (name : String)
      (rests : ¬(site.Moves plant plan live plane ∧ site.engine.loaded.epoch = live)) :
      after.engine.slotsServed plane name = site.engine.slotsServed plane name := by
    rw [shortServes, kept plane name _ (not_and_or.mp rests)]
    rfl
  have shortAttrs (plane : Plane) (name peer : String) :
      after.engine.attrsServed plane name peer = site.engine.attrsServed plane name peer := by
    rw [Engine.attrsServed, attrs, loaded]
    rfl
  have longAttrs (plane : Plane) (name peer : String) :
      engine.attrsServed plane name peer =
        (site.engine.dicts.get plane).attrs.get? (name, peer, epoch) := by
    rw [Engine.attrsServed, settled.attrs, stage]
  constructor
  · intro alike
    refine ⟨?_, fun path => ?_, fun pool inside routed => ?_, fun pool inside routed peer => ?_⟩
    · rw [← loaded, alike.conf, conf]
    · rw [files, ← loaded, alike.certificates]
      rfl
    · by_cases moves : site.Moves plant plan live (planeOf pool) ∧
        site.engine.loaded.epoch = live
      · exact .inl moves
      · right
        rw [← resting _ _ moves, alike.slots pool inside routed, longServes]
    · rw [← shortAttrs, alike.attrs pool inside routed peer, longAttrs]
  · intro right
    refine ⟨?_, fun path => ?_, fun pool inside routed => ?_, fun pool inside routed peer => ?_⟩
    · rw [loaded, right.conf, conf]
    · rw [loaded, right.certificates, files]
      rfl
    · by_cases moves : site.Moves plant plan live (planeOf pool) ∧
        site.engine.loaded.epoch = live
      · exact moving _ _ moves.1 moves.2
      · rw [resting _ _ moves, longServes]
        exact (right.slots pool inside routed).resolve_left moves
    · rw [shortAttrs, right.attrs pool inside routed peer, longAttrs]

/-! ### After a transition that got half-way -/

/-- The ports that are listened on and the upstreams, as far as a configuration
text shows them here. -/
def plainRenderer : Renderer where
  conf model :=
    String.join (model.pools.map fun pool => "upstream pool_" ++ pool.key ++ " \x7b\n") ++
      String.join (model.listeners.map fun listener =>
        "listen " ++ listener.bind ++ ":" ++ toString listener.port ++ ";\n")
  digest key := key

def plainPlant : Plant where
  renderer := plainRenderer
  sha256 := id
  platform := Validate.plainPlatform
  lua := ⟨true, true⟩
  lookupPeer := some
  secrets := none

def oneListener (port : Nat) (host : String) : Model where
  listeners :=
    [{ key := "front", bind := "0.0.0.0", port := port, enabled := true,
       body := .tcp { defaultPool := "app" } }]
  pools := [{ key := "app", protocolClass := .tcp, algorithm := .roundRobin }]
  backends := [{ key := "one", pool := "app", host := host, port := 80, weight := 1 }]

def planOf (id : String) (state : Store.PlanState) (revision epoch : Nat) (model : Model) :
    PlanEntry where
  id := id
  state := state
  targetRevision := some revision
  activationEpoch := some epoch
  model := model
  renderDigest := plainRenderer.conf model

def builtFrom (epoch : Nat) (model : Model) : Generation where
  name := generationName (epoch + 1) epoch
  epoch := epoch
  conf := plainRenderer.conf model
  certificates := .empty
  membership := some ⟨.empty, OrderedMap.empty.set "pool_app" ["10.0.0.1:80"]⟩

/-- The peers of the pool on the stream plane at these epochs. -/
def streamDicts (epochs : List Nat) : PerPlane MembershipDict :=
  ⟨⟨.empty, .empty⟩,
    ⟨epochs.foldl (fun stored epoch => stored.set ("pool_app", epoch) ["10.0.0.1:80"]) .empty,
      .empty⟩⟩

def agentAt (http stream : Nat) : AgentState :=
  { Dp.initial with
    maxLeaderToken := 1
    planes :=
      ⟨{ Dp.zero with activationEpoch := http }, { Dp.zero with activationEpoch := stream }⟩ }

/-- Revision 2 was activated, revision 3 moved one plane only, and revision 4 goes
back to the configuration of revision 2. -/
def halfWay : Site where
  head := 4
  modelAt revision := oneListener (if revision = 3 then 8081 else 8080) "10.0.0.1"
  plans :=
    [planOf "first" .applied 2 1 (oneListener 8080 "10.0.0.1"),
     planOf "second" .operationBound 3 2 (oneListener 8081 "10.0.0.1"),
     planOf "back" .committed 4 3 (oneListener 8080 "10.0.0.1")]
  operations :=
    [⟨"o1", "first", 2, 1, "r2-e1", .ended .activated, false⟩,
     ⟨"o2", "second", 3, 2, "r3-e2", .ended .partialExhausted, true⟩]
  verdicts := ⟨.empty, []⟩
  intake := none
  leaderToken := some 1
  directories := .empty
  agent := agentAt 2 1
  published := .owned ⟨"r3-e2", .ofNat 1, "o2", "r3", ""⟩
  engine := ⟨builtFrom 2 (oneListener 8081 "10.0.0.1"), streamDicts [1, 2]⟩

/-- Going back is recorded as activated, and the engine keeps listening on the
port of the revision that got half-way. -/
theorem membershipOnly_serves_otherwise :
    ¬∀ (plant : Plant) (site : Site) (planId operationId : String) (plan : PlanEntry)
        (revision live epoch : Nat) (after : Site) (engine : Engine),
      chooseApply plant site planId = .membershipOnly plan revision live →
      plan.activationEpoch = some epoch →
      applyMembershipOnly plant site plan revision live operationId = some after →
      applyGeneration plant site plan revision epoch = some engine →
      ServesAlike plant plan.model after.engine engine := by
  intro claim
  have chosen : chooseApply plainPlant halfWay "back" =
      .membershipOnly (planOf "back" .committed 4 3 (oneListener 8080 "10.0.0.1")) 4 1 := by
    decide +kernel
  obtain ⟨after, short⟩ := Option.isSome_iff_exists.mp
    (show (applyMembershipOnly plainPlant halfWay
      (planOf "back" .committed 4 3 (oneListener 8080 "10.0.0.1")) 4 1 "o3").isSome = true by
        decide +kernel)
  obtain ⟨engine, long⟩ := Option.isSome_iff_exists.mp
    (show (applyGeneration plainPlant halfWay
      (planOf "back" .committed 4 3 (oneListener 8080 "10.0.0.1")) 4 3).isSome = true by
        decide +kernel)
  have alike := claim plainPlant halfWay "back" "o3" _ 4 1 3 after engine chosen rfl short long
  have same := alike.conf
  rw [(applyMembershipOnly_engine short).1,
    (applyGeneration_engine (usesMembership_of_chosen chosen) long).2.1] at same
  exact absurd same (by decide +kernel)

/-- The same site without the transition that got half-way, and a plan that moves
a backend. -/
def settledSite : Site :=
  { halfWay with
    plans :=
      [planOf "first" .applied 2 1 (oneListener 8080 "10.0.0.1"),
       planOf "moved" .committed 4 3 (oneListener 8080 "10.0.0.2")]
    operations := [⟨"o1", "first", 2, 1, "r2-e1", .ended .activated, false⟩]
    modelAt := fun revision =>
      oneListener 8080 (if revision = 4 then "10.0.0.2" else "10.0.0.1")
    agent := agentAt 1 1
    published := .owned ⟨"r2-e1", .ofNat 1, "o1", "r2", ""⟩
    engine := ⟨builtFrom 1 (oneListener 8080 "10.0.0.1"), streamDicts [1]⟩ }

theorem membershipOnly_serves_settled :
    ∃ (after : Site) (engine : Engine),
      applyMembershipOnly plainPlant settledSite
          (planOf "moved" .committed 4 3 (oneListener 8080 "10.0.0.2")) 4 1 "o2" = some after ∧
        applyGeneration plainPlant settledSite
          (planOf "moved" .committed 4 3 (oneListener 8080 "10.0.0.2")) 4 3 = some engine ∧
        ServesAlike plainPlant (oneListener 8080 "10.0.0.2") after.engine engine := by
  have chosen : chooseApply plainPlant settledSite "moved" =
      .membershipOnly (planOf "moved" .committed 4 3 (oneListener 8080 "10.0.0.2")) 4 1 := by
    decide +kernel
  obtain ⟨after, short⟩ := Option.isSome_iff_exists.mp
    (show (applyMembershipOnly plainPlant settledSite
      (planOf "moved" .committed 4 3 (oneListener 8080 "10.0.0.2")) 4 1 "o2").isSome = true by
        decide +kernel)
  obtain ⟨engine, long⟩ := Option.isSome_iff_exists.mp
    (show (applyGeneration plainPlant settledSite
      (planOf "moved" .committed 4 3 (oneListener 8080 "10.0.0.2")) 4 3).isSome = true by
        decide +kernel)
  refine ⟨after, engine, short, long, (membershipOnly_serves_iff chosen short long).mpr ?_⟩
  have onePool : ∀ pool ∈ (oneListener 8080 "10.0.0.2").pools, planeOf pool = .stream := by
    decide +kernel
  refine ⟨by decide +kernel, fun path => rfl, fun pool inside _ => ?_, fun pool inside _ peer => ?_⟩
  · rw [onePool pool inside]
    exact .inl ⟨⟨by decide +kernel, by decide +kernel⟩, rfl⟩
  · rw [onePool pool inside]
    rfl

end Barycenter.Control
