import Barycenter.Control.MembershipReadback

/-!
# A sequence of pushes

Pushes to one plane under one epoch write over each other and delete nothing.
On the http plane the last push is what is read back exactly when every earlier
slot list and every earlier attribute that can be read is written again, and no
peer with attributes has a colon in its address.  The stream plane reads back no
attributes and takes the lines that carry them for slot lists.
-/

namespace Barycenter.Control

open Config
open Dp (Plane Numeral)
open Scanning

def Assigned (plane : Plane) (epoch : Numeral) (push : MembershipPush)
    (key value : List Char) : Prop :=
  (∃ name peers, push.slots.get? name = some peers ∧
      key = slotKey name.toList epoch ∧ value = joined peers) ∨
    match plane with
    | .http => ∃ name here peer attrs, push.attrs.get? name = some here ∧
        here.get? peer = some attrs ∧ key = attrKey name.toList peer.toList epoch ∧
          value = (attrsText attrs).toList
    | .stream => ∃ name here, push.attrs.get? name = some here ∧ here.entries ≠ [] ∧
        key = slotKey ('!' :: name.toList) epoch ∧ value = joined (attrsEntries here)

/-- The dictionary after some pushes to a fresh epoch. -/
def dictAfter (plane : Plane) (epoch : Numeral) (pushes : List MembershipPush) : EngineDict :=
  pushes.foldl (fun dict push => pushedTo plane epoch dict (encodeSlots push.slots push.attrs))
    .empty

def shownAttrs (attrs : PeerAttrs) : ReadAttrs :=
  { softMaxConns := attrs.softMaxConns
    isBackup := decide (attrs.isBackup = some true) }

/-- The slot lists and attributes that are read back are those of a push. -/
structure ReadsBack (plane : Plane) (epoch : Numeral) (dict : EngineDict)
    (push : MembershipPush) : Prop where
  slots : ∀ name peers, (name, peers) ∈ slotsRead epoch dict ↔
    ∃ upstream list, push.slots.get? upstream = some list ∧
      name = upstream.toList ∧ peers = list.map String.toList
  attrs : ∀ name peer shown, (name, peer, shown) ∈ attrsRead plane epoch dict ↔
    ∃ upstream here address attrs, push.attrs.get? upstream = some here ∧
      here.get? address = some attrs ∧ name = upstream.toList ∧ peer = address.toList ∧
        shown = shownAttrs attrs

/-- Nothing of the earlier pushes shows, and everything of the last one can be
read. -/
structure Legible (plane : Plane) (earlier : List MembershipPush) (last : MembershipPush) :
    Prop where
  slots : ∀ push ∈ earlier, ∀ name, (push.slots.get? name).isSome →
    (last.slots.get? name).isSome
  attrs : match plane with
    | .http =>
        (∀ push ∈ earlier, ∀ name here peer, push.attrs.get? name = some here →
          (here.get? peer).isSome → (hostOf peer).getLast? = some ':' ∨
            ∃ there, last.attrs.get? name = some there ∧ (there.get? peer).isSome) ∧
          ∀ name here peer, last.attrs.get? name = some here → (here.get? peer).isSome →
            ':' ∉ hostOf peer
    | .stream => ∀ push ∈ earlier ++ [last], ∀ name here,
        push.attrs.get? name = some here → here.entries = []

/-! ## One push -/

section

variable {plane : Plane} {epoch : Numeral} {push last : MembershipPush}
  {earlier pushes : List MembershipPush} {key value name peer : List Char}

theorem mem_writes :
    (key, value) ∈ (bodyLines plane (encodeSlots push.slots push.attrs).toList).flatMap
        (lineWrites plane epoch) ↔ Assigned plane epoch push key value := by
  rw [bodyLines_encodeSlots]
  simp only [List.mem_flatMap, List.mem_map, exists_exists_and_eq_and, mem_sortedBy,
    mem_slotsLines]
  constructor
  · rintro ⟨line, ⟨name, peers, found, rfl⟩ | ⟨name, here, found, filled, rfl⟩, written⟩
    · rw [lineWrites_slotLine plane (push.slotNames name peers found),
        List.mem_singleton, Prod.mk.injEq] at written
      exact .inl ⟨name, peers, found, written⟩
    · refine .inr ?_
      cases plane with
      | http =>
          rw [httpLine_attrLine found] at written
          simp only [List.mem_map, mem_sortedBy, Prod.exists, OrderedMap.mem_entries_iff,
            Prod.mk.injEq] at written
          obtain ⟨peer, attrs, stored, rfl, rfl⟩ := written
          exact ⟨name, here, peer, attrs, found, stored, rfl, rfl⟩
      | stream =>
          rw [streamLine_attrLine found, List.mem_singleton, Prod.mk.injEq] at written
          exact ⟨name, here, found, filled, written⟩
  · rintro (⟨name, peers, found, rfl, rfl⟩ | assigned)
    · refine ⟨slotLine name peers, .inl ⟨name, peers, found, rfl⟩, ?_⟩
      rw [lineWrites_slotLine plane (push.slotNames name peers found)]
      exact List.mem_singleton_self _
    · cases plane with
      | http =>
          obtain ⟨name, here, peer, attrs, found, stored, rfl, rfl⟩ := assigned
          have member := OrderedMap.mem_entries_iff.mpr stored
          refine ⟨attrLine name here,
            .inr ⟨name, here, found, List.ne_nil_of_mem member, rfl⟩, ?_⟩
          rw [httpLine_attrLine found, List.mem_map]
          exact ⟨(peer, attrs), mem_sortedBy.mpr member, rfl⟩
      | stream =>
          obtain ⟨name, here, found, filled, rfl, rfl⟩ := assigned
          refine ⟨attrLine name here, .inr ⟨name, here, found, filled, rfl⟩, ?_⟩
          rw [streamLine_attrLine found]
          exact List.mem_singleton_self _

theorem slotKey_marked {name other : String} (named : IsUpstreamName name) :
    slotKey name.toList epoch ≠ slotKey ('!' :: other.toList) epoch := by
  intro same
  have shape := slotKey_inj.mp same
  exact @IsUpstreamName.free _ named '!' (by decide) (by simp [shape])

theorem Assigned.agree {other : List Char} (first : Assigned plane epoch push key value)
    (second : Assigned plane epoch push key other) : value = other := by
  rcases first with ⟨name, peers, found, rfl, rfl⟩ | first
  · rcases second with ⟨again, others, foundAgain, same, rfl⟩ | second
    · cases String.toList_inj.mp (slotKey_inj.mp same)
      cases found.symm.trans foundAgain
      rfl
    · cases plane with
      | http =>
          obtain ⟨_, _, _, _, -, -, same, -⟩ := second
          exact absurd same slotKey_ne_attrKey
      | stream =>
          obtain ⟨_, _, -, -, same, -⟩ := second
          exact absurd same (slotKey_marked (push.slotNames name peers found))
  · cases plane with
    | http =>
        obtain ⟨name, here, peer, attrs, found, stored, rfl, rfl⟩ := first
        rcases second with ⟨_, _, -, same, -⟩ | ⟨again, there, address, others, foundAgain,
          storedAgain, same, rfl⟩
        · exact absurd same.symm slotKey_ne_attrKey
        · obtain ⟨sameName, samePeer⟩ := DelimitedText.split_at_separator
            ((push.attrNames name here found).free (by decide))
            ((push.attrNames again there foundAgain).free (by decide)) (attrKey_inj.mp same)
          cases String.toList_inj.mp sameName
          cases String.toList_inj.mp samePeer
          cases found.symm.trans foundAgain
          cases stored.symm.trans storedAgain
          rfl
    | stream =>
        obtain ⟨name, here, found, -, rfl, rfl⟩ := first
        rcases second with ⟨again, peers, foundAgain, same, -⟩ | ⟨again, there, foundAgain, -,
          same, rfl⟩
        · exact absurd same.symm (slotKey_marked (push.slotNames again peers foundAgain))
        · have names := slotKey_inj.mp same
          simp only [List.cons.injEq, true_and] at names
          cases String.toList_inj.mp names
          cases found.symm.trans foundAgain
          rfl

theorem get?_pushedTo {dict : EngineDict} :
    (pushedTo plane epoch dict (encodeSlots push.slots push.attrs)).get? key = some value ↔
      Assigned plane epoch push key value ∨
        (∀ other, ¬Assigned plane epoch push key other) ∧ dict.get? key = some value := by
  rw [pushedTo, OrderedMap.get?_written_iff]
  · simp only [mem_writes]
  · intro key first second left right
    exact (mem_writes.mp left).agree (mem_writes.mp right)

/-! ## A sequence of pushes -/

theorem get?_dictAfter_concat :
    (dictAfter plane epoch (earlier ++ [last])).get? key = some value ↔
      Assigned plane epoch last key value ∨
        (∀ other, ¬Assigned plane epoch last key other) ∧
          (dictAfter plane epoch earlier).get? key = some value := by
  rw [dictAfter, List.foldl_append, List.foldl_cons, List.foldl_nil, get?_pushedTo]
  rfl

theorem stored_of_dictAfter (stored : (dictAfter plane epoch pushes).get? key = some value) :
    ∃ push ∈ pushes, Assigned plane epoch push key value := by
  induction pushes using List.reverseRecOn with
  | nil => cases stored
  | append_singleton earlier last induction =>
      rcases get?_dictAfter_concat.mp stored with here | ⟨-, before⟩
      · exact ⟨last, by simp, here⟩
      · obtain ⟨push, member, assigned⟩ := induction before
        exact ⟨push, List.mem_append_left _ member, assigned⟩

theorem dictAfter_of_assigned (member : push ∈ pushes)
    (assigned : Assigned plane epoch push key value) :
    ∃ current, (dictAfter plane epoch pushes).get? key = some current := by
  induction pushes using List.reverseRecOn with
  | nil => cases member
  | append_singleton earlier last induction =>
      by_cases again : ∃ other, Assigned plane epoch last key other
      · obtain ⟨other, here⟩ := again
        exact ⟨other, get?_dictAfter_concat.mpr (.inl here)⟩
      · have untouched : ∀ other, ¬Assigned plane epoch last key other :=
          fun other here => again ⟨other, here⟩
        rcases List.mem_append.mp member with before | same
        · obtain ⟨current, stored⟩ := induction before
          exact ⟨current, get?_dictAfter_concat.mpr (.inr ⟨untouched, stored⟩)⟩
        · cases List.mem_singleton.mp same
          exact absurd assigned (untouched value)

end

/-! ## Reading -/

section

variable {plane : Plane} {epoch : Numeral} {push last : MembershipPush}
  {earlier pushes : List MembershipPush} {dict : EngineDict}

theorem mem_slotsRead {name : List Char} {peers : List (List Char)} :
    (name, peers) ∈ slotsRead epoch dict ↔
      name ≠ [] ∧ ∃ value, dict.get? (slotKey name epoch) = some value ∧
        peers = pieces ',' value := by
  simp only [slotsRead, List.mem_filterMap, Prod.exists, OrderedMap.mem_entries_iff,
    Option.map_eq_some_iff, Prod.mk.injEq, slotName_eq_some]
  constructor
  · rintro ⟨_, value, stored, _, ⟨rfl, filled⟩, rfl, rfl⟩
    exact ⟨filled, value, stored, rfl⟩
  · rintro ⟨filled, value, stored, rfl⟩
    exact ⟨_, value, stored, name, ⟨rfl, filled⟩, rfl, rfl⟩

theorem mem_attrsRead {name peer : List Char} {shown : ReadAttrs} :
    (name, peer, shown) ∈ attrsRead .http epoch dict ↔
      ∃ rest, dict.get? (attrKey name peer epoch) = some rest ∧
        attrName epoch (attrKey name peer epoch) = some (name, peer) ∧
        shown = readAttrs rest := by
  simp only [attrsRead, List.mem_filterMap, Prod.exists, OrderedMap.mem_entries_iff,
    Option.map_eq_some_iff, Prod.mk.injEq]
  constructor
  · rintro ⟨key, rest, stored, _, _, read, rfl, rfl, rfl⟩
    obtain ⟨rfl, -⟩ := attrName_eq_some.mp read
    exact ⟨rest, stored, read, rfl⟩
  · rintro ⟨rest, stored, read, rfl⟩
    exact ⟨_, rest, stored, name, peer, read, rfl, rfl, rfl⟩

theorem readAttrs_attrsText (attrs : PeerAttrs) :
    readAttrs (attrsText attrs).toList = shownAttrs attrs := by
  obtain ⟨softMaxConns, isBackup⟩ := attrs
  have cut : firstCut '|' (attrsText ⟨softMaxConns, isBackup⟩).toList =
      some ((softMaxConns.elim "" toString).toList,
        (if isBackup = some true then "1" else "").toList) := by
    refine firstCut_eq_some.mpr ⟨by simp [attrsText], ?_⟩
    cases softMaxConns with
    | none => simp
    | some number => exact DelimitedText.separator_notMem_numeral (by decide) number
  rw [readAttrs, cut]
  cases softMaxConns with
  | none => by_cases backup : isBackup = some true <;> simp [shownAttrs, backup]
  | some number =>
      have filled : Nat.toDigits 10 number ≠ [] := Nat.toDigits_ne_nil
      by_cases backup : isBackup = some true <;>
        simp [shownAttrs, backup, filled, Nat.ofDigitChars_ten_toDigits]

theorem pieces_joined {name : String} {peers : List String}
    (found : push.slots.get? name = some peers) :
    pieces ',' (joined peers) = peers.map String.toList := by
  refine pieces_intercalate ?_ ?_
  · intro part member
    obtain ⟨peer, peerMember, rfl⟩ := List.mem_map.mp member
    exact (push.slotPeers name peers found peer peerMember).free (by decide) (by decide)
      (by decide)
  · intro part member
    obtain ⟨peer, peerMember, rfl⟩ := List.mem_map.mp member
    obtain ⟨host, port, rfl, -, -⟩ := push.slotPeers name peers found peer peerMember
    simp [toList_peerOf]

/-! ## Addresses with colons -/

theorem IsPeer.shape {peer : String} (address : IsPeer peer) :
    hostOf peer ≠ [] ∧ ∃ port, peer.toList = hostOf peer ++ ':' :: port ∧ port ≠ [] ∧
      ':' ∉ port ∧ port.all Char.isDigit = true := by
  obtain ⟨host, port, rfl, filled, -⟩ := address
  rw [hostOf_peerOf]
  refine ⟨filled, (toString port).toList, toList_peerOf host port, ?_, ?_, ?_⟩
  · simp
  · exact DelimitedText.separator_notMem_numeral (by decide) port
  · rw [List.all_eq_true]
    intro character member
    exact Nat.isDigit_of_mem_toDigits (b := 10) (by decide) (by decide) (by simpa using member)

variable {name peer : String}

theorem attrName_plain (named : IsUpstreamName name) (address : IsPeer peer)
    (plain : ':' ∉ hostOf peer) :
    attrName epoch (attrKey name.toList peer.toList epoch) = some (name.toList, peer.toList) := by
  obtain ⟨filled, port, shape, portFilled, portFree, digits⟩ := address.shape
  exact attrName_eq_some.mpr
    ⟨rfl, named.1, hostOf peer, port, shape, filled, plain, portFilled, portFree, digits⟩

/-- What is read of a peer is the peer itself, or its address has colons and
does not end with one. -/
theorem attrName_cases (address : IsPeer peer) {front back : List Char}
    (same : front ++ ':' :: back = name.toList ++ ':' :: peer.toList)
    (read : attrName epoch (attrKey front back epoch) = some (front, back)) :
    (front = name.toList ∧ back = peer.toList ∧ ':' ∉ hostOf peer) ∨
      (':' ∈ front ∧ ':' ∈ hostOf peer ∧ (hostOf peer).getLast? ≠ some ':') := by
  obtain ⟨-, -, host, port, rfl, hostFilled, hostFree, -, portFree, -⟩ :=
    attrName_eq_some.mp read
  obtain ⟨filled, digits, shape, -, digitsFree, -⟩ := address.shape
  rw [shape] at same
  have last : front ++ ':' :: host = name.toList ++ ':' :: hostOf peer ∧ port = digits :=
    DelimitedText.split_at_last_separator portFree digitsFree (by simpa using same)
  obtain ⟨rest, rfl⟩ := last
  by_cases plain : ':' ∈ hostOf peer
  · obtain ⟨early, late, split, lateFree⟩ := exists_lastCut plain
    rw [split] at rest
    obtain ⟨rfl, rfl⟩ := @DelimitedText.split_at_last_separator ':' front
      (name.toList ++ ':' :: early) host late hostFree lateFree (by simpa using rest)
    refine .inr ⟨by simp, plain, ?_⟩
    rw [split]
    obtain ⟨most, ending, concat⟩ := (List.eq_nil_or_concat host).resolve_left hostFilled
    intro ends
    refine hostFree ?_
    rw [concat, List.concat_eq_append, ← List.cons_append, ← List.append_assoc,
      List.getLast?_concat] at ends
    have last : ending = ':' := Option.some.inj ends
    simp [concat, last]
  · obtain ⟨rfl, rfl⟩ := DelimitedText.split_at_last_separator hostFree plain rest
    exact .inl ⟨rfl, by rw [shape], plain⟩

theorem attrName_visible (named : IsUpstreamName name) (address : IsPeer peer)
    (visible : (hostOf peer).getLast? ≠ some ':') :
    ∃ front back, attrKey front back epoch = attrKey name.toList peer.toList epoch ∧
      attrName epoch (attrKey front back epoch) = some (front, back) := by
  obtain ⟨filled, port, shape, portFilled, portFree, digits⟩ := address.shape
  by_cases plain : ':' ∈ hostOf peer
  · obtain ⟨early, late, split, lateFree⟩ := exists_lastCut plain
    have lateFilled : late ≠ [] := by
      rintro rfl
      exact visible (by simp [split])
    refine ⟨name.toList ++ ':' :: early, late ++ ':' :: port, ?_, ?_⟩
    · rw [attrKey_inj, shape, split]
      simp
    · exact attrName_eq_some.mpr ⟨rfl, by simp, late, port, rfl, lateFilled, lateFree,
        portFilled, portFree, digits⟩
  · exact ⟨name.toList, peer.toList, rfl, attrName_plain named address plain⟩

/-! ## Both directions -/

/-- The slot lists of the last push are read back, and no others, when no list
is left over and no other line was taken for one. -/
theorem slots_read {stored : EngineDict}
    (found : ∀ name value, stored.get? (slotKey name epoch) = some value ↔
      ∃ upstream peers, last.slots.get? upstream = some peers ∧ name = upstream.toList ∧
        value = joined peers)
    (name : List Char) (peers : List (List Char)) :
    (name, peers) ∈ slotsRead epoch stored ↔
      ∃ upstream list, last.slots.get? upstream = some list ∧
        name = upstream.toList ∧ peers = list.map String.toList := by
  rw [mem_slotsRead]
  simp only [found]
  constructor
  · rintro ⟨-, _, ⟨upstream, list, here, rfl, rfl⟩, rfl⟩
    exact ⟨upstream, list, here, rfl, pieces_joined here⟩
  · rintro ⟨upstream, list, here, rfl, rfl⟩
    exact ⟨(last.slotNames upstream list here).1, joined list, ⟨upstream, list, here, rfl, rfl⟩,
      (pieces_joined here).symm⟩

/-- A key under which only slot lines of the last push are found holds that
slot list. -/
theorem slotKey_iff
    (slots : ∀ push ∈ earlier, ∀ name, (push.slots.get? name).isSome →
      (last.slots.get? name).isSome)
    (only : ∀ push ∈ earlier ++ [last], ∀ name value,
      Assigned plane epoch push (slotKey name epoch) value → ∃ upstream peers,
        push.slots.get? upstream = some peers ∧ name = upstream.toList ∧ value = joined peers)
    (name value : List Char) :
    (dictAfter plane epoch (earlier ++ [last])).get? (slotKey name epoch) = some value ↔
      ∃ upstream peers, last.slots.get? upstream = some peers ∧ name = upstream.toList ∧
        value = joined peers := by
  rw [get?_dictAfter_concat]
  constructor
  · rintro (here | ⟨untouched, before⟩)
    · exact only last (by simp) name value here
    · obtain ⟨push, member, assigned⟩ := stored_of_dictAfter before
      obtain ⟨upstream, peers, found, rfl, rfl⟩ :=
        only push (List.mem_append_left _ member) name value assigned
      have kept := slots push member upstream (by simp [found])
      obtain ⟨current, present⟩ := Option.isSome_iff_exists.mp kept
      exact absurd (.inl ⟨upstream, current, present, rfl, rfl⟩) (untouched (joined current))
  · rintro ⟨upstream, peers, found, rfl, rfl⟩
    exact .inl (.inl ⟨upstream, peers, found, rfl, rfl⟩)

theorem Assigned.ofSlotKey_http {name value : List Char}
    (assigned : Assigned .http epoch push (slotKey name epoch) value) :
    ∃ upstream peers, push.slots.get? upstream = some peers ∧ name = upstream.toList ∧
      value = joined peers := by
  rcases assigned with ⟨upstream, peers, found, same, rfl⟩ | ⟨_, _, _, _, -, -, same, -⟩
  · exact ⟨upstream, peers, found, slotKey_inj.mp same, rfl⟩
  · exact absurd same slotKey_ne_attrKey

theorem Assigned.ofAttrKey {front back value : List Char}
    (assigned : Assigned .http epoch push (attrKey front back epoch) value) :
    ∃ name here peer attrs, push.attrs.get? name = some here ∧ here.get? peer = some attrs ∧
      front ++ ':' :: back = name.toList ++ ':' :: peer.toList ∧
        value = (attrsText attrs).toList := by
  rcases assigned with ⟨_, _, -, same, -⟩ | ⟨name, here, peer, attrs, found, stored, same, rfl⟩
  · exact absurd same.symm slotKey_ne_attrKey
  · exact ⟨name, here, peer, attrs, found, stored, attrKey_inj.mp same, rfl⟩

theorem ReadsBack.slots_kept
    (reads : ReadsBack plane epoch (dictAfter plane epoch (earlier ++ [last])) last) :
    ∀ push ∈ earlier, ∀ name, (push.slots.get? name).isSome →
      (last.slots.get? name).isSome := by
  intro push member name some
  obtain ⟨peers, found⟩ := Option.isSome_iff_exists.mp some
  obtain ⟨current, stored⟩ := @dictAfter_of_assigned plane epoch push (earlier ++ [last]) _ _
    (List.mem_append_left _ member) (.inl ⟨name, peers, found, rfl, rfl⟩)
  obtain ⟨upstream, list, here, same, -⟩ := (reads.slots _ _).mp
    (mem_slotsRead.mpr ⟨(push.slotNames name peers found).1, current, stored, rfl⟩)
  rw [String.toList_inj.mp same, here]
  rfl

theorem ReadsBack.legible_http
    (reads : ReadsBack .http epoch (dictAfter .http epoch (earlier ++ [last])) last) :
    Legible .http earlier last := by
  refine ⟨reads.slots_kept, ?_, ?_⟩
  · intro push member name here peer found given
    obtain ⟨attrs, stored⟩ := Option.isSome_iff_exists.mp given
    have named := push.attrNames name here found
    have address := push.attrPeers name here found peer attrs stored
    by_cases visible : (hostOf peer).getLast? = some ':'
    · exact .inl visible
    · refine .inr ?_
      obtain ⟨front, back, sameKey, read⟩ := @attrName_visible epoch name peer named address visible
      obtain ⟨current, kept⟩ := @dictAfter_of_assigned .http epoch push (earlier ++ [last]) _ _
        (List.mem_append_left _ member)
        (.inr ⟨name, here, peer, attrs, found, stored, rfl, rfl⟩)
      rw [← sameKey] at kept
      obtain ⟨upstream, there, other, others, lastFound, lastStored, rfl, rfl, -⟩ :=
        (reads.attrs _ _ _).mp (mem_attrsRead.mpr ⟨current, kept, read, rfl⟩)
      rcases attrName_cases address (attrKey_inj.mp sameKey) read with
        ⟨sameName, samePeer, -⟩ | ⟨colon, -⟩
      · cases String.toList_inj.mp sameName
        cases String.toList_inj.mp samePeer
        exact ⟨there, lastFound, by simp [lastStored]⟩
      · exact absurd colon ((last.attrNames upstream there lastFound).free (by decide))
  · intro name here peer found given
    obtain ⟨attrs, stored⟩ := Option.isSome_iff_exists.mp given
    have address := last.attrPeers name here found peer attrs stored
    obtain ⟨-, -, read, -⟩ := mem_attrsRead.mp ((reads.attrs _ _ _).mpr
      ⟨name, here, peer, attrs, found, stored, rfl, rfl, rfl⟩)
    rcases attrName_cases address rfl read with ⟨-, -, plain⟩ | ⟨colon, -⟩
    · exact plain
    · exact absurd colon ((last.attrNames name here found).free (by decide))

theorem Legible.readsBack_http (legible : Legible .http earlier last) :
    ReadsBack .http epoch (dictAfter .http epoch (earlier ++ [last])) last := by
  obtain ⟨again, plain⟩ := legible.attrs
  refine ⟨slots_read (slotKey_iff legible.slots fun _ _ _ _ => Assigned.ofSlotKey_http), ?_⟩
  intro front back shown
  rw [mem_attrsRead]
  constructor
  · rintro ⟨rest, stored, read, rfl⟩
    rcases get?_dictAfter_concat.mp stored with assigned | ⟨untouched, before⟩
    · obtain ⟨name, here, peer, attrs, found, given, same, rfl⟩ := assigned.ofAttrKey
      rcases attrName_cases (last.attrPeers name here found peer attrs given) same read with
        ⟨rfl, rfl, -⟩ | ⟨-, colon, -⟩
      · exact ⟨name, here, peer, attrs, found, given, rfl, rfl, readAttrs_attrsText attrs⟩
      · exact absurd colon (plain name here peer found (by simp [given]))
    · obtain ⟨push, member, assigned⟩ := stored_of_dictAfter before
      obtain ⟨name, here, peer, attrs, found, given, same, -⟩ := assigned.ofAttrKey
      have rewritten : ∀ there, last.attrs.get? name = some there → (there.get? peer).isSome →
          False := by
        intro there lastFound some
        obtain ⟨others, lastGiven⟩ := Option.isSome_iff_exists.mp some
        exact untouched (attrsText others).toList
          (.inr ⟨name, there, peer, others, lastFound, lastGiven, attrKey_inj.mpr same, rfl⟩)
      rcases again push member name here peer found (by simp [given]) with
        ends | ⟨there, lastFound, some⟩
      · rcases attrName_cases (push.attrPeers name here found peer attrs given) same read with
          ⟨-, -, free⟩ | ⟨-, -, visible⟩
        · exact absurd (List.mem_of_getLast? ends) free
        · exact absurd ends visible
      · exact (rewritten there lastFound some).elim
  · rintro ⟨name, here, peer, attrs, found, given, rfl, rfl, rfl⟩
    have read := @attrName_plain epoch name peer (last.attrNames name here found)
      (last.attrPeers name here found peer attrs given)
      (plain name here peer found (by simp [given]))
    exact ⟨_, get?_dictAfter_concat.mpr
      (.inl (.inr ⟨name, here, peer, attrs, found, given, rfl, rfl⟩)), read,
      (readAttrs_attrsText attrs).symm⟩

theorem ReadsBack.legible_stream
    (reads : ReadsBack .stream epoch (dictAfter .stream epoch (earlier ++ [last])) last) :
    Legible .stream earlier last := by
  refine ⟨reads.slots_kept, ?_⟩
  intro push member name here found
  by_contra filled
  obtain ⟨current, stored⟩ := @dictAfter_of_assigned .stream epoch push (earlier ++ [last]) _ _
    member (.inr ⟨name, here, found, filled, rfl, rfl⟩)
  obtain ⟨upstream, list, lastFound, same, -⟩ := (reads.slots _ _).mp
    (mem_slotsRead.mpr ⟨by simp, current, stored, rfl⟩)
  exact @IsUpstreamName.free _ (last.slotNames upstream list lastFound) '!' (by decide)
    (by simp [← same])

theorem Legible.readsBack_stream (legible : Legible .stream earlier last) :
    ReadsBack .stream epoch (dictAfter .stream epoch (earlier ++ [last])) last := by
  have bare := legible.attrs
  refine ⟨slots_read (slotKey_iff legible.slots ?_), ?_⟩
  · intro push member name value assigned
    rcases assigned with ⟨upstream, peers, found, same, rfl⟩ | ⟨marked, here, found, filled, -⟩
    · exact ⟨upstream, peers, found, slotKey_inj.mp same, rfl⟩
    · exact absurd (bare push member marked here found) filled
  · intro name peer shown
    refine iff_of_false (by simp [attrsRead]) ?_
    rintro ⟨upstream, here, address, attrs, found, given, -⟩
    have member := OrderedMap.mem_entries_iff.mpr given
    rw [bare last (by simp) upstream here found] at member
    cases member

/-- For all pushes to one plane and epoch, the last one is what is read back
exactly when nothing earlier shows and all of it can be read. -/
theorem readsBack_iff (plane : Plane) (epoch : Numeral) (earlier : List MembershipPush)
    (last : MembershipPush) :
    ReadsBack plane epoch (dictAfter plane epoch (earlier ++ [last])) last ↔
      Legible plane earlier last := by
  cases plane with
  | http => exact ⟨ReadsBack.legible_http, Legible.readsBack_http⟩
  | stream => exact ⟨ReadsBack.legible_stream, Legible.readsBack_stream⟩

end

/-- One pool with one backend, and attributes of that backend or none. -/
def onePeerPush (attrs : Option PeerAttrs) : MembershipPush where
  slots := OrderedMap.empty.set "pool_app" ["10.0.0.1:80"]
  attrs := attrs.elim .empty fun given =>
    OrderedMap.empty.set "pool_app" (OrderedMap.empty.set "10.0.0.1:80" given)
  slotNames := by
    intro name peers found
    simp only [OrderedMap.get?_set, OrderedMap.get?_empty] at found
    split at found
    · rename_i same
      exact same ▸ ⟨by simp, by simp [safeCharacter]⟩
    · cases found
  slotPeers := by
    intro name peers found peer member
    simp only [OrderedMap.get?_set, OrderedMap.get?_empty] at found
    split at found
    · cases found
      rw [List.mem_singleton.mp member]
      exact ⟨"10.0.0.1", 80, rfl, by simp, by simp [hostCharacter]⟩
    · cases found
  attrNames := by
    intro name here found
    cases attrs with
    | none => cases found
    | some given =>
        simp only [Option.elim_some, OrderedMap.get?_set, OrderedMap.get?_empty] at found
        split at found
        · rename_i same
          exact same ▸ ⟨by simp, by simp [safeCharacter]⟩
        · cases found
  attrPeers := by
    intro name here found peer others stored
    cases attrs with
    | none => cases found
    | some given =>
        simp only [Option.elim_some, OrderedMap.get?_set, OrderedMap.get?_empty] at found
        split at found
        · cases found
          simp only [OrderedMap.get?_set, OrderedMap.get?_empty] at stored
          split at stored
          · rename_i same
            exact same ▸ ⟨"10.0.0.1", 80, rfl, by simp, by simp [hostCharacter]⟩
          · cases stored
        · cases found

/-- A limit that has been taken back stays in the dictionary. -/
theorem limit_left_over :
    ¬ReadsBack .http ⟨0, 5⟩
      (dictAfter .http ⟨0, 5⟩ [onePeerPush (some ⟨some 10, none⟩), onePeerPush none])
      (onePeerPush none) := by
  intro reads
  have legible := @ReadsBack.legible_http ⟨0, 5⟩ (onePeerPush none)
    [onePeerPush (some ⟨some 10, none⟩)] reads
  rcases legible.attrs.1 _ (List.mem_singleton_self _) "pool_app" _ "10.0.0.1:80" rfl rfl with
    ends | ⟨there, found, -⟩
  · have host : hostOf "10.0.0.1:80" = "10.0.0.1".toList := hostOf_peerOf "10.0.0.1" 80
    rw [host] at ends
    simp at ends
  · cases found

end Barycenter.Control
