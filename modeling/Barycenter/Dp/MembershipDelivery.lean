import Barycenter.Dp.ProgramRules
import Barycenter.Dp.Remote
import Mathlib.Algebra.GroupWithZero.Nat

/-!
# What a membership push hands on

A push of a membership passes the driver and the effects on the agent's host,
and from another host the client and the server as well.  The effects on files
hand the plane, the epoch and the slots to the writer into the running server.
The two ways part where the server does not let the message in: a body over its
limit, or an operation whose generation is not a piece of a path.
-/

namespace Barycenter.Dp

open Remote

/-- What the writer into the running server is handed. -/
structure Delivery where
  plane : Plane
  epoch : Numeral
  slots : Slots
  attrs : SlotAttrs
deriving DecidableEq

/-- The effect of pushing a membership, and what it hands on. -/
abbrev MembershipEffect := Plane → Numeral → Slots → SlotAttrs → List Delivery

/-- The options of the effects on files: is there a writer? -/
structure FsEffectsOptions where
  pushMembership : Bool

namespace FsEffects

/-- The effect has three parameters, so a fourth argument goes nowhere. -/
def pushMembership (opts : FsEffectsOptions) : MembershipEffect := fun plane epoch slots _ =>
  if opts.pushMembership then
    [{ plane := plane, epoch := epoch, slots := slots, attrs := .empty }]
  else []

end FsEffects

namespace LocalDriver

def applyMembership (pushMembership : MembershipEffect) (s : AgentState) (op : ApplyOperation)
    (plane : Plane) (slots : Slots) : List Delivery :=
  match op.planes.get plane with
  | none => []
  | some target =>
      match tupleFor op plane with
      | .error _ => []
      | .ok tuple =>
          match serial (.applyHealth tuple) s with
          | .error _ => []
          | .ok _ => pushMembership plane target.target.activationEpoch slots .empty

def pushMembershipDirect (pushMembership : MembershipEffect) (plane : Plane) (epoch : Numeral)
    (slots : Slots) (attrs : SlotAttrs) : List Delivery :=
  pushMembership plane epoch slots attrs

/-- What a call that pushes a membership hands on, in a state of the agent. -/
def delivered (pushMembership : MembershipEffect) (s : AgentState) :
    DataplaneCall → List Delivery
  | .applyMembership op plane slots => applyMembership pushMembership s op plane slots
  | .pushMembershipDirect plane epoch slots attrs =>
      pushMembershipDirect pushMembership plane epoch slots attrs
  | _ => []

end LocalDriver

def Remote.Link.delivered (link : Link) (pushMembership : MembershipEffect) (s : AgentState)
    (call : DataplaneCall) : List Delivery :=
  match (link.exchange call).1 with
  | none => []
  | some arrived => LocalDriver.delivered pushMembership s arrived

def Delivery.Of (delivery : Delivery) : DataplaneCall → Prop
  | .applyMembership op plane slots =>
      delivery.plane = plane ∧ delivery.slots = slots ∧
        ∃ target, op.planes.get plane = some target ∧
          delivery.epoch = target.target.activationEpoch
  | .pushMembershipDirect plane epoch slots _ =>
      delivery.plane = plane ∧ delivery.slots = slots ∧ delivery.epoch = epoch
  | _ => False

variable {opts : FsEffectsOptions}

theorem delivered_plain (s : AgentState) (call : DataplaneCall) :
    LocalDriver.delivered (FsEffects.pushMembership opts) s call.plain =
      LocalDriver.delivered (FsEffects.pushMembership opts) s call := by
  cases call <;> rfl

theorem mem_pushMembership {delivery : Delivery} {plane : Plane} {epoch : Numeral} {slots : Slots}
    (attrs : SlotAttrs)
    (member : delivery ∈ FsEffects.pushMembership opts plane epoch slots attrs) :
    delivery = { plane := plane, epoch := epoch, slots := slots, attrs := .empty } := by
  unfold FsEffects.pushMembership at member
  split at member
  · exact List.mem_singleton.mp member
  · cases member

theorem delivery_of {s : AgentState} {call : DataplaneCall} {delivery : Delivery}
    (member : delivery ∈ LocalDriver.delivered (FsEffects.pushMembership opts) s call) :
    delivery.Of call := by
  cases call with
  | applyMembership op plane slots =>
      simp only [LocalDriver.delivered, LocalDriver.applyMembership] at member
      split at member
      · cases member
      · rename_i target found
        split at member
        · cases member
        · split at member
          · cases member
          · obtain rfl := mem_pushMembership _ member
            exact ⟨rfl, rfl, target, found, rfl⟩
  | pushMembershipDirect plane epoch slots attrs =>
      obtain rfl := mem_pushMembership attrs member
      exact ⟨rfl, rfl, rfl⟩
  | fence _ | applyConfig _ | recoverConfig | abortConfig _ | reconcileConfig | status =>
      cases member

/-- A push whose operation has a proper name hands on from afar what it hands on in
place, unless its message is larger than the server takes; then it hands on nothing. -/
theorem membership_delivered (link : Link) (opts : FsEffectsOptions) (s : AgentState)
    (call : DataplaneCall)
    (named : ∀ op ∈ call.operation, isPathSegment op.targetGeneration = true) :
    (link.delivered (FsEffects.pushMembership opts) s call =
        if link.server.maxBody < call.body.bytes then []
        else LocalDriver.delivered (FsEffects.pushMembership opts) s call) ∧
      ∀ delivery ∈ LocalDriver.delivered (FsEffects.pushMembership opts) s call,
        delivery.Of call := by
  refine ⟨?_, fun delivery member => delivery_of member⟩
  split
  · rename_i large
    rw [Link.delivered, Link.exchange_eq, if_pos large]
  · rename_i small
    rw [Link.delivered, Link.exchange_carried named (Nat.not_lt.mp small)]
    exact delivered_plain s call

def defaultLink : Link where
  peer := { authorized := true, commonName := some "cp" }
  server :=
    { driver :=
        { perform := fun _ => .thrown ""
          typed := fun _ _ => trivial }
      allowedClientNames := ["cp"] }
  authorized := rfl
  admitted := rfl

theorem membership_delivered_direct :
    defaultLink.delivered (FsEffects.pushMembership { pushMembership := true }) initial
        (.pushMembershipDirect .http ⟨0, 3⟩ (.fromEntries [("u", ["10.0.0.1:80"])]) .empty) =
      [{ plane := .http
         epoch := ⟨0, 3⟩
         slots := .fromEntries [("u", ["10.0.0.1:80"])]
         attrs := .empty }] :=
  (membership_delivered defaultLink { pushMembership := true } initial _
    (by simp [DataplaneCall.operation])).1.trans (if_neg (by decide +kernel))

/-! ## A message that is too large -/

def longSlots (letters : Nat) : Slots :=
  ⟨[("u", [String.ofList (List.replicate letters 'a')])], List.nodup_singleton _⟩

theorem utf8ByteSize_foldl (pieces : List String) (start : String) :
    (pieces.foldl (· ++ ·) start).utf8ByteSize =
      start.utf8ByteSize + (pieces.map String.utf8ByteSize).sum := by
  induction pieces generalizing start with
  | nil => simp
  | cons piece rest induction =>
      rw [List.foldl_cons, induction, String.utf8ByteSize_append, List.map_cons, List.sum_cons]
      omega

theorem le_bytes_longSlots (plane : Plane) (epoch : Numeral) (letters : Nat) :
    letters ≤
      (DataplaneCall.pushMembershipDirect plane epoch (longSlots letters) .empty).body.bytes := by
  have name : letters ≤ (JsonText.quoted (String.ofList (List.replicate letters 'a'))).utf8ByteSize := by
    have letter : "a".utf8ByteSize = 1 := rfl
    simp only [JsonText.quoted, String.join, String.toList_ofList, List.map_replicate,
      JsonText.escapeChar, String.utf8ByteSize_append, utf8ByteSize_foldl]
    simp [letter]
    omega
  simp [DataplaneCall.body, Json.record, Json.bytes, Json.text, Json.fieldTexts, Json.elementTexts,
    Json.strings, Wire.slotsJson, Json.ofMap, longSlots, OrderedMap.mapValues, String.intercalate_cons_cons, String.intercalate_singleton]
  omega

theorem large_push_not_delivered :
    ∃ (link : Link) (opts : FsEffectsOptions) (s : AgentState) (plane : Plane) (epoch : Numeral)
      (slots : Slots) (attrs : SlotAttrs),
      link.delivered (FsEffects.pushMembership opts) s
          (.pushMembershipDirect plane epoch slots attrs) ≠
        LocalDriver.delivered (FsEffects.pushMembership opts) s
          (.pushMembershipDirect plane epoch slots attrs) := by
  refine ⟨defaultLink, { pushMembership := true }, initial, .http, ⟨0, 1⟩, longSlots 4194305,
    .empty, ?_⟩
  have large : defaultLink.server.maxBody <
      (DataplaneCall.pushMembershipDirect .http ⟨0, 1⟩ (longSlots 4194305) .empty).body.bytes :=
    Nat.lt_of_lt_of_le (by decide) (le_bytes_longSlots _ _ _)
  rw [Link.delivered, Link.exchange_eq, if_pos large]
  simp [LocalDriver.delivered, LocalDriver.pushMembershipDirect, FsEffects.pushMembership]

end Barycenter.Dp
