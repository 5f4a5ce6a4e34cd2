import Barycenter.Control.Membership
import Barycenter.Control.GenerationSweep
import Barycenter.Validate.BindTransition

/-!
# What the engine serves

The engine runs one generation: the bytes of a configuration, the certificate
and key files next to it, and an epoch that is written into it.  The balancers
of a plane look their peers up in a dictionary that outlives generations, under
the name of the upstream and the epoch of the generation.  A push of slots
writes them at an epoch and reads that epoch back; what it reads has to be what
it wrote.  The attributes of peers have keys of their own, and the file effects
drop them on their way to a push, so no push writes one.
-/

namespace Barycenter.Control

open Config
open Dp (Plane PerPlane)

/-! ## Certificate files -/

structure Material where
  fullchain : String
  privkey : String
deriving DecidableEq, Repr

def refCharacter (character : Char) : Bool :=
  character.isAlphanum || character == '.' || character == '_' || character == '-'

def hexCharacter (character : Char) : Bool :=
  character.isDigit || ('a' ≤ character && character ≤ 'f')

/-- `store://<name>@<version>` with a version of 16 to 64 hexadecimal digits. -/
def parseRef (ref : String) : Option (String × String) :=
  let characters := ref.toList
  let scheme := "store://".toList
  if scheme.isPrefixOf characters then
    let rest := characters.drop scheme.length
    let name := rest.takeWhile refCharacter
    match rest.dropWhile refCharacter with
    | '@' :: version =>
        if name ≠ [] && version.all hexCharacter && 16 ≤ version.length &&
            version.length ≤ 64 then
          some (String.ofList name, String.ofList version)
        else none
    | _ => none
  else none

/-- What the control plane runs over: the renderer, a digest of texts, the
library functions of the bind check, the planes whose engine has Lua, the
addresses of peer names, and the store of certificate material. -/
structure Plant where
  renderer : Renderer
  sha256 : String → String
  platform : Validate.Platform
  lua : PerPlane Bool
  lookupPeer : String → Option String
  secrets : Option (String → Option Material)

def addCertificate (sha256 : String → String) (secret : String → Option Material)
    (files : OrderedMap String String) (certificate : Certificate) :
    Option (OrderedMap String String) :=
  match certificate.materialRef, certificate.chainDigest, certificate.keyDigest with
  | some ref, some chain, some key => do
      let material ← secret ref
      if "sha256:" ++ sha256 material.fullchain ≠ chain ∨
          "sha256:" ++ sha256 material.privkey ≠ key then
        none
      else
        let (_, version) ← parseRef ref
        let directory := "certs/" ++ certificate.key ++ "/" ++ version ++ "/"
        some ((files.set (directory ++ "fullchain.pem") material.fullchain).set
          (directory ++ "privkey.pem") material.privkey)
  | _, _, _ => some files

def hasMaterial (certificate : Certificate) : Bool :=
  certificate.materialRef.isSome && certificate.chainDigest.isSome &&
    certificate.keyDigest.isSome

/-- Nothing when the material is missing or not the recorded one. -/
def certificateFiles (plant : Plant) (model : Model) : Option (OrderedMap String String) :=
  let certificates := model.certificates.filter hasMaterial
  if certificates = [] then some OrderedMap.empty
  else
    plant.secrets.bind fun secret =>
      certificates.foldlM (addCertificate plant.sha256 secret) OrderedMap.empty

/-! ## The dictionary of a plane -/

/-- Slots under the name of an upstream and an epoch, attributes under the name
of an upstream, a peer and an epoch. -/
structure MembershipDict where
  slots : OrderedMap (String × Nat) (List String)
  attrs : OrderedMap (String × String × Nat) PeerAttrs
deriving DecidableEq, Repr

namespace MembershipDict

def write (dict : MembershipDict) (epoch : Nat) (slots : Slots) : MembershipDict :=
  { dict with
    slots := slots.entries.foldl (fun stored entry => stored.set (entry.1, epoch) entry.2)
      dict.slots }

def readsBack (dict : MembershipDict) (epoch : Nat) (slots : Slots) : Bool :=
  (dict.slots.entries.all fun entry =>
      decide (entry.1.2 ≠ epoch) || decide (slots.get? entry.1.1 = some entry.2)) &&
    dict.attrs.entries.all fun entry => decide (entry.1.2.2 ≠ epoch)

end MembershipDict

/-- A peer without an address is left out, and the others stay. -/
def resolveSlots (lookupPeer : String → Option String) (slots : Slots) : Slots :=
  slots.mapValues fun peers => peers.filterMap lookupPeer

/-! ## Generations and the engine -/

structure Generation where
  name : String
  epoch : Nat
  conf : String
  certificates : OrderedMap String String
  /-- `lua/membership.json` -/
  membership : Option (PerPlane Slots)
deriving DecidableEq, Repr

structure Engine where
  loaded : Generation
  dicts : PerPlane MembershipDict
deriving DecidableEq, Repr

namespace Engine

variable (plant : Plant)

/-- The engine after a push, and whether what was read back is what was written.
Nobody answers on a plane without Lua. -/
def push (plane : Plane) (epoch : Nat) (slots : Slots) (engine : Engine) : Engine × Bool :=
  if plant.lua.get plane then
    let want := resolveSlots plant.lookupPeer slots
    let dict := (engine.dicts.get plane).write epoch want
    ({ engine with dicts := engine.dicts.set plane dict }, dict.readsBack epoch want)
  else
    (engine, false)

/-- Put the slots of a generation in place before the reload. -/
def stageMembership (generation : Generation) (plane : Plane) (engine : Engine) :
    Option Engine :=
  match generation.membership with
  | none => some engine
  | some membership =>
      let slots := membership.get plane
      if slots.keys.length = 0 then some engine
      else
        match engine.push plant plane generation.epoch slots with
        | (pushed, true) => some pushed
        | (_, false) => none

/-- What a transition that ends activated does to the engine. -/
def switchTo (generation : Generation) (engine : Engine) : Option Engine := do
  let httpStaged ← engine.stageMembership plant generation .http
  let staged ← httpStaged.stageMembership plant generation .stream
  return { staged with loaded := generation }

/-- The peers under the name of an upstream at an epoch. -/
def entry (engine : Engine) (plane : Plane) (name : String) (epoch : Nat) :
    Option (List String) :=
  (engine.dicts.get plane).slots.get? (name, epoch)

/-- The peers that a balancer of the running generation chooses from.  Without a
list and with an empty one it turns every request away. -/
def slotsServed (engine : Engine) (plane : Plane) (name : String) : List String :=
  (engine.entry plane name engine.loaded.epoch).getD []

def attrsServed (engine : Engine) (plane : Plane) (name peer : String) : Option PeerAttrs :=
  (engine.dicts.get plane).attrs.get? (name, peer, engine.loaded.epoch)

end Engine

/-- Two engines serve the same, the name and the epoch of the generation apart:
the same bytes, the same certificate and key files, and for every pool that has
an upstream the same peers with the same attributes. -/
structure ServesAlike (plant : Plant) (model : Model) (left right : Engine) : Prop where
  conf : left.loaded.conf = right.loaded.conf
  certificates : ∀ path,
    left.loaded.certificates.get? path = right.loaded.certificates.get? path
  slots : ∀ pool ∈ model.pools, pool.key ∈ routedPools plant.renderer model →
    left.slotsServed (planeOf pool) (upstreamName plant.renderer.digest pool.key) =
      right.slotsServed (planeOf pool) (upstreamName plant.renderer.digest pool.key)
  attrs : ∀ pool ∈ model.pools, pool.key ∈ routedPools plant.renderer model → ∀ peer,
    left.attrsServed (planeOf pool) (upstreamName plant.renderer.digest pool.key) peer =
      right.attrsServed (planeOf pool) (upstreamName plant.renderer.digest pool.key) peer

/-! ## What a push leaves -/

namespace MembershipDict

theorem get?_foldl_write (epoch : Nat) (entries : List (String × List String))
    (distinct : (entries.map Prod.fst).Nodup) (stored : OrderedMap (String × Nat) (List String))
    (name : String) (stage : Nat) :
    (entries.foldl (fun stored entry => stored.set (entry.1, epoch) entry.2) stored).get?
        (name, stage) =
      if stage = epoch then (OrderedMap.lookup entries name).or (stored.get? (name, stage))
      else stored.get? (name, stage) := by
  induction entries generalizing stored with
  | nil => simp [OrderedMap.lookup]
  | cons entry rest induction =>
      obtain ⟨stored', value⟩ := entry
      obtain ⟨fresh, restDistinct⟩ := List.nodup_cons.mp distinct
      rw [List.foldl_cons, induction restDistinct, OrderedMap.get?_set]
      by_cases there : stage = epoch
      · subst there
        by_cases same : stored' = name
        · subst same
          have absent : OrderedMap.lookup rest stored' = none := by
            cases found : OrderedMap.lookup rest stored' with
            | none => rfl
            | some other =>
                let others : OrderedMap String (List String) := ⟨rest, restDistinct⟩
                have member : (stored', other) ∈ others.entries :=
                  OrderedMap.mem_entries_iff.mpr found
                exact absurd (List.mem_map_of_mem member) fresh
          simp [OrderedMap.lookup, absent]
        · simp [OrderedMap.lookup, same]
      · simp [there, Ne.symm there]

theorem get?_write (dict : MembershipDict) (epoch : Nat) (slots : Slots) (name : String)
    (stage : Nat) :
    (dict.write epoch slots).slots.get? (name, stage) =
      if stage = epoch then (slots.get? name).or (dict.slots.get? (name, stage))
      else dict.slots.get? (name, stage) :=
  get?_foldl_write epoch slots.entries slots.distinct dict.slots name stage

theorem readsBack_slots {dict : MembershipDict} {epoch : Nat} {slots : Slots}
    (same : dict.readsBack epoch slots = true) {name : String} {peers : List String}
    (stored : dict.slots.get? (name, epoch) = some peers) : slots.get? name = some peers := by
  obtain ⟨lines, -⟩ := Bool.and_eq_true_iff.mp same
  have line := List.all_eq_true.mp lines _ (OrderedMap.mem_entries_iff.mpr stored)
  simpa using line

end MembershipDict

namespace Engine

variable {plant : Plant}

theorem push_loaded (plane : Plane) (epoch : Nat) (slots : Slots) (engine : Engine) :
    (engine.push plant plane epoch slots).1.loaded = engine.loaded := by
  unfold push
  split <;> rfl

theorem push_attrs (plane other : Plane) (epoch : Nat) (slots : Slots) (engine : Engine) :
    ((engine.push plant plane epoch slots).1.dicts.get other).attrs =
      (engine.dicts.get other).attrs := by
  unfold push
  split
  · simp only [PerPlane.get_set]
    split
    · next same =>
        subst same
        rfl
    · rfl
  · rfl

variable {plane : Plane}

/-- A push that reached the engine leaves its slots over what stood at the
epoch, and nothing else changes. -/
theorem push_entry (answers : plant.lua.get plane = true) (epoch : Nat) (slots : Slots)
    (engine : Engine) (other : Plane) (name : String) (stage : Nat) :
    (engine.push plant plane epoch slots).1.entry other name stage =
      if other = plane ∧ stage = epoch then
        ((resolveSlots plant.lookupPeer slots).get? name).or (engine.entry other name stage)
      else engine.entry other name stage := by
  simp only [push, answers, if_true, entry, PerPlane.get_set]
  by_cases same : plane = other
  · subst same
    simp [MembershipDict.get?_write]
  · simp [same, Ne.symm same]

theorem push_answers {epoch : Nat} {slots : Slots} {engine pushed : Engine}
    (done : engine.push plant plane epoch slots = (pushed, true)) : plant.lua.get plane = true := by
  unfold push at done
  split at done
  · next answers => exact answers
  · cases done

/-- After a push that read back what it wrote, the epoch holds its slots and no
others. -/
theorem push_exact {epoch : Nat} {slots : Slots} {engine pushed : Engine}
    (done : engine.push plant plane epoch slots = (pushed, true)) (name : String) :
    pushed.entry plane name epoch = (resolveSlots plant.lookupPeer slots).get? name := by
  have answers := push_answers done
  have reached := push_entry answers epoch slots engine plane name epoch
  rw [done] at reached
  simp only [and_self, if_true] at reached
  rw [reached]
  cases wanted : (resolveSlots plant.lookupPeer slots).get? name with
  | some peers => rfl
  | none =>
      cases stale : engine.entry plane name epoch with
      | none => rfl
      | some peers =>
          have still : pushed.entry plane name epoch = some peers := by
            rw [reached, wanted, stale]
            rfl
          simp only [push, answers, if_true, Prod.mk.injEq] at done
          obtain ⟨rfl, same⟩ := done
          rw [entry, PerPlane.get_set_same] at still
          have line := MembershipDict.readsBack_slots same still
          rw [wanted] at line
          cases line

end Engine

end Barycenter.Control
