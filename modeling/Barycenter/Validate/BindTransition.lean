import Barycenter.Foundation.DelimitedText
import Barycenter.Foundation.OrderedMap
import Barycenter.Validate.Sockets
import Mathlib.Data.List.Dedup
import Mathlib.Data.List.Induction

/-!
# Binds that a reload cannot make

A reload binds the new sockets while the old ones are still open, and inherits
only a socket with exactly the same address.  So it cannot open a wildcard next
to a specific address of the same port, nor the other way round.  Within one
generation a wildcard takes the specific addresses of its port in; only TCP
sockets are compared.
-/

namespace Barycenter

namespace Validate

open Config
open Store (ListenerProtocol protocolOf)

structure Bound where
  family : Family
  addr : String
  wildcard : Bool
  port : Nat
  canonical : wildcard = decide (addr = wildcardAddr family)
  shaped : family = .v4 → isIPv4 addr.toList = true
  deriving Repr

theorem Bound.eq_iff {bound other : Bound} :
    (bound.family = other.family ∧ bound.addr = other.addr ∧ bound.wildcard = other.wildcard ∧
      bound.port = other.port) ↔ bound = other := by
  cases bound
  cases other
  simp

instance : DecidableEq Bound := fun _ _ => decidable_of_iff _ Bound.eq_iff

structure BindTransitionConflict where
  opens : String
  blockedBy : List String
  message : String
  deriving DecidableEq, Repr

def socketName (bound : Bound) : String :=
  "tcp://" ++
    (match bound.family with
      | .v6 => "[" ++ bound.addr ++ "]"
      | .v4 => bound.addr) ++ ":" ++ toString bound.port

/-- The socket of a listener with an address that can be read. -/
def boundOf (platform : Platform) (listener : Listener) : Option Bound :=
  match normalizeBind platform listener.bind with
  | .ok address =>
      some
        { family := address.family, addr := address.addr, wildcard := address.wildcard,
          port := listener.port, canonical := address.canonical, shaped := address.shaped }
  | .error _ => none

/-- Within a group the address alone tells the sockets apart. -/
def Bound.group (bound : Bound) : Family × Nat := (bound.family, bound.port)

def addToGroup (groups : OrderedMap (Family × Nat) (List Bound)) (bound : Bound) :
    OrderedMap (Family × Nat) (List Bound) :=
  let list := (groups.get? bound.group).getD []
  groups.set bound.group (if list.any (fun other => other.addr = bound.addr) then list
    else list ++ [bound])

def boundInGroup (list : List Bound) : List Bound :=
  match list.find? Bound.wildcard with
  | some wild => [wild]
  | none => list

def boundTcpSockets (platform : Platform) (listeners : List Listener) : List Bound :=
  let bounds := (withRedirectListeners listeners).filterMap fun listener =>
    if !listener.enabled || transportOf (protocolOf listener.body) ≠ .tcp then none
    else boundOf platform listener
  let groups := bounds.foldl addToGroup OrderedMap.empty
  (groups.values.flatMap boundInGroup).insertionSort fun left right =>
    left.port < right.port ∨
      left.port = right.port ∧ platform.localeCompare left.addr right.addr ≠ .gt

def bindTransitionConflicts (platform : Platform) (before after : List Listener) :
    List BindTransitionConflict :=
  let opened := boundTcpSockets platform before
  let openNames := opened.map socketName
  (boundTcpSockets platform after).filterMap fun bound =>
    let name := socketName bound
    if name ∈ openNames then none
    else
      let blockers := opened.filter fun other =>
        other.family = bound.family && other.port = bound.port &&
          (other.wildcard || bound.wildcard)
      if blockers = [] then none
      else
        let by_ := blockers.map socketName
        some
          { opens := name
            blockedBy := by_
            message := name ++ " 를 새로 열어야 하는데 지금 " ++ ", ".intercalate by_ ++
              " 가 열려 있다. " ++
              "reload 는 옛 소켓을 연 채로 새 소켓을 bind 하므로 Linux 가 막는다(Address already in use). " ++
              "두 번에 나눠 적용한다: 먼저 :" ++ toString bound.port ++
              " 의 옛 소켓을 닫는 변경(그 리스너를 끄거나 지운다)을 적용하고, " ++
              "그다음 원하는 바인드를 적용한다. 두 적용 사이에 그 포트가 잠깐 닫힌다." }

/-! ## Names of sockets -/

variable {left right : Bound}

theorem Bound.ext_of_group (group : left.group = right.group)
    (addr : left.addr = right.addr) : left = right := by
  obtain ⟨family, leftAddr, wildcard, port, canonical, _⟩ := left
  obtain ⟨otherFamily, rightAddr, otherWildcard, otherPort, otherCanonical, _⟩ := right
  simp only [Bound.group, Prod.mk.injEq] at group
  obtain ⟨rfl, rfl⟩ := group
  cases addr
  cases canonical.trans otherCanonical.symm
  rfl

def shownAddr (bound : Bound) : List Char :=
  match bound.family with
  | .v6 => '[' :: bound.addr.toList ++ [']']
  | .v4 => bound.addr.toList

theorem bracket_notMem_v4 {bound : Bound} (family : bound.family = .v4) :
    '[' ∉ bound.addr.toList := by
  intro member
  rcases isIPv4_chars (bound.shaped family) member with dot | digit
  · cases dot
  · cases digit

theorem shownAddr_injective (same : shownAddr left = shownAddr right) :
    left.family = right.family ∧ left.addr = right.addr := by
  cases leftFamily : left.family <;> cases rightFamily : right.family <;>
    simp only [shownAddr, leftFamily, rightFamily] at same
  · exact ⟨rfl, String.toList_inj.mp same⟩
  · exact absurd (by simp [same]) (bracket_notMem_v4 leftFamily)
  · exact absurd (by simp [← same]) (bracket_notMem_v4 rightFamily)
  · simp only [List.cons_append, List.cons.injEq, true_and, List.append_cancel_right_eq] at same
    exact ⟨rfl, String.toList_inj.mp same⟩

theorem socketName_injective (same : socketName left = socketName right) :
    left = right := by
  have shown : ∀ bound : Bound, (socketName bound).toList =
      "tcp://".toList ++ (shownAddr bound ++ ':' :: (toString bound.port).toList) := by
    intro bound
    cases family : bound.family <;> simp [socketName, shownAddr, family]
  have joined := congrArg String.toList same
  rw [shown, shown, List.append_cancel_left_eq] at joined
  have colonFree (number : Nat) : ':' ∉ (toString number).toList :=
    DelimitedText.separator_notMem_numeral (by decide) number
  obtain ⟨addrs, ports⟩ :=
    DelimitedText.split_at_last_separator (colonFree _) (colonFree _) joined
  obtain ⟨family, addr⟩ := shownAddr_injective addrs
  exact Bound.ext_of_group
    (Prod.ext family (DelimitedText.numeral_injective ports)) addr

/-! ## What is bound -/

theorem Bound.wildcard_unique (leftWild : left.wildcard = true)
    (rightWild : right.wildcard = true) (group : left.group = right.group) : left = right := by
  have family : left.family = right.family := congrArg Prod.fst group
  rw [left.canonical, decide_eq_true_eq] at leftWild
  rw [right.canonical, decide_eq_true_eq] at rightWild
  exact Bound.ext_of_group group (by rw [leftWild, rightWild, family])

def exposed (bounds : List Bound) : List Bound :=
  (bounds.filter fun bound =>
    bound.wildcard || !bounds.any fun other => other.group = bound.group && other.wildcard).dedup

variable {bounds : List Bound}

theorem mem_exposed {bound : Bound} :
    bound ∈ exposed bounds ↔
      bound ∈ bounds ∧ ∀ other ∈ bounds, other.group = bound.group → other.wildcard = true →
        other = bound := by
  simp only [exposed, List.mem_dedup, List.mem_filter, Bool.or_eq_true, Bool.not_eq_true',
    List.any_eq_false, Bool.and_eq_true, decide_eq_true_eq, not_and, Bool.not_eq_true]
  refine and_congr_right fun member => ⟨?_, ?_⟩
  · rintro (wild | alone) other isBound group otherWild
    · exact Bound.wildcard_unique otherWild wild group
    · rw [alone other isBound group] at otherWild
      cases otherWild
  · intro unique
    by_cases wild : bound.wildcard = true
    · exact .inl wild
    · refine .inr fun other isBound group => ?_
      by_contra otherWild
      rw [Bool.not_eq_false] at otherWild
      exact wild (unique other isBound group otherWild ▸ otherWild)

theorem mem_addToGroup {groups : OrderedMap (Family × Nat) (List Bound)} {bound other : Bound}
    {group : Family × Nat}
    (grouped : ∀ group, ∀ other ∈ (groups.get? group).getD [], other.group = group) :
    other ∈ ((addToGroup groups bound).get? group).getD [] ↔
      other ∈ (groups.get? group).getD [] ∨ other = bound ∧ other.group = group := by
  by_cases here : bound.group = group
  · subst here
    simp only [addToGroup, OrderedMap.get?_set_same, Option.getD_some]
    split
    · next known =>
      obtain ⟨same, isMember, sameAddr⟩ := List.any_eq_true.mp known
      have isBound : same = bound :=
        Bound.ext_of_group (grouped _ same isMember) (by simpa using sameAddr)
      subst isBound
      refine ⟨Or.inl, ?_⟩
      rintro (member | ⟨rfl, -⟩)
      · exact member
      · exact isMember
    · rw [List.mem_append, List.mem_singleton]
      exact or_congr_right ⟨fun same => ⟨same, by rw [same]⟩, And.left⟩
  · rw [addToGroup, OrderedMap.get?_set_other _ _ here]
    refine ⟨Or.inl, ?_⟩
    rintro (member | ⟨rfl, isHere⟩)
    · exact member
    · exact absurd isHere here

theorem mem_boundGroup {bound : Bound} {group : Family × Nat} :
    bound ∈ ((bounds.foldl addToGroup OrderedMap.empty).get? group).getD [] ↔
      bound ∈ bounds ∧ bound.group = group := by
  induction bounds using List.reverseRecOn generalizing bound group with
  | nil => simp
  | append_singleton bounds last induction =>
      rw [List.foldl_append, List.foldl_cons, List.foldl_nil,
        mem_addToGroup fun _ _ member => (induction.mp member).2, induction, List.mem_append,
        List.mem_singleton]
      exact ⟨fun split => split.elim (fun old => ⟨.inl old.1, old.2⟩)
          fun new => ⟨.inr new.1, new.2⟩,
        fun both => both.1.imp (⟨·, both.2⟩) (⟨·, both.2⟩)⟩

theorem mem_boundInGroup {list : List Bound} {bound : Bound} {group : Family × Nat}
    (grouped : ∀ other ∈ list, other.group = group) :
    bound ∈ boundInGroup list ↔
      bound ∈ list ∧ ∀ other ∈ list, other.wildcard = true → other = bound := by
  unfold boundInGroup
  split
  · next wild found =>
    have isWild := List.find?_some found
    have isMember := List.mem_of_find?_eq_some found
    rw [List.mem_singleton]
    constructor
    · rintro rfl
      exact ⟨isMember, fun other member otherWild => Bound.wildcard_unique otherWild isWild
        (by rw [grouped other member, grouped _ isMember])⟩
    · exact fun both => (both.2 wild isMember isWild).symm
  · next none =>
    refine ⟨fun member => ⟨member, fun other isMember otherWild => ?_⟩, And.left⟩
    exact absurd otherWild (List.find?_eq_none.mp none other isMember)

theorem mem_boundGroups {bound : Bound} :
    bound ∈ (bounds.foldl addToGroup OrderedMap.empty).values.flatMap boundInGroup ↔
      bound ∈ exposed bounds := by
  rw [List.mem_flatMap, mem_exposed]
  constructor
  · rintro ⟨list, isValue, member⟩
    obtain ⟨group, found⟩ := OrderedMap.mem_values_iff.mp isValue
    have inGroup : ∀ other, other ∈ list ↔ other ∈ bounds ∧ other.group = group := by
      intro other
      rw [← mem_boundGroup, found, Option.getD_some]
    obtain ⟨isMember, unique⟩ :=
      (mem_boundInGroup fun other inside => ((inGroup other).mp inside).2).mp member
    obtain ⟨isBound, isHere⟩ := (inGroup bound).mp isMember
    exact ⟨isBound, fun other isOther sameGroup =>
      unique other ((inGroup other).mpr ⟨isOther, sameGroup.trans isHere⟩)⟩
  · rintro ⟨isBound, unique⟩
    have inGroup := (@mem_boundGroup bounds bound bound.group).mpr ⟨isBound, rfl⟩
    cases found : (bounds.foldl addToGroup OrderedMap.empty).get? bound.group with
    | none => simp [found] at inGroup
    | some list =>
        have members : ∀ other, other ∈ list ↔ other ∈ bounds ∧ other.group = bound.group := by
          intro other
          rw [← mem_boundGroup, found, Option.getD_some]
        refine ⟨list, OrderedMap.mem_values_iff.mpr ⟨bound.group, found⟩, ?_⟩
        refine (mem_boundInGroup fun other inside => ((members other).mp inside).2).mpr
          ⟨(members bound).mpr ⟨isBound, rfl⟩, fun other inside => ?_⟩
        exact unique other ((members other).mp inside).1 ((members other).mp inside).2

end Validate

end Barycenter
