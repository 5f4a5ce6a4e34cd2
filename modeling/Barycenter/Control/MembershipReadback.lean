import Barycenter.Control.MembershipWire

/-!
# What of a push is read back

The keys of slot lists and of attributes can be told apart, and a key determines
what it is made of as long as the name of the upstream has no colon.  The reader
of the attributes cuts at the last two colons, so it takes an address with
colons of its own apart in the wrong place, or does not read it at all.
-/

namespace Barycenter.Control

open Config
open Dp (Plane Numeral)
open Scanning

/-! ## Names and peers -/

def IsUpstreamName (name : String) : Prop :=
  name.toList ≠ [] ∧ ∀ character ∈ name.toList, safeCharacter character = true

def hostCharacter (character : Char) : Bool :=
  character.isAlphanum || ['.', '-', '_', ':', '[', ']', '%'].contains character

/-- An IPv4 or IPv6 address or a host name, with a port. -/
def IsPeer (peer : String) : Prop :=
  ∃ host port, peer = peerOf host port ∧ host.toList ≠ [] ∧
    ∀ character ∈ host.toList, hostCharacter character = true

theorem IsUpstreamName.free {name : String} (named : IsUpstreamName name) {separator : Char}
    (unsafe_ : safeCharacter separator = false) : separator ∉ name.toList := by
  intro member
  have holds := named.2 separator member
  rw [unsafe_] at holds
  cases holds

theorem IsPeer.free {peer : String} (address : IsPeer peer) {separator : Char}
    (notHost : hostCharacter separator = false) (notDigit : separator.isDigit = false)
    (notColon : separator ≠ ':') : separator ∉ peer.toList := by
  obtain ⟨host, port, rfl, -, safe⟩ := address
  intro member
  have parts : peerOf host port = host ++ ":" ++ toString port := by
    simp [peerOf, toString]
  simp only [parts, String.toList_append, List.mem_append] at member
  rcases member with (own | colon) | digit
  · have holds := safe separator own
    rw [notHost] at holds
    cases holds
  · exact notColon (by simpa using colon)
  · exact DelimitedText.separator_notMem_numeral notDigit port digit

def hostOf (peer : String) : List Char :=
  ((lastCut ':' peer.toList).map Prod.fst).getD []

theorem toList_peerOf (host : String) (port : Nat) :
    (peerOf host port).toList = host.toList ++ ':' :: (toString port).toList := by
  have parts : peerOf host port = host ++ ":" ++ toString port := by
    simp [peerOf, toString]
  simp [parts]

theorem hostOf_peerOf (host : String) (port : Nat) : hostOf (peerOf host port) = host.toList := by
  have cut := lastCut_eq_some.mpr
    ⟨toList_peerOf host port, DelimitedText.separator_notMem_numeral (by decide) port⟩
  simp [hostOf, cut]

/-- What is pushed for a plane: upstream names, and peers with their attributes. -/
structure MembershipPush where
  slots : Slots
  attrs : Attrs
  slotNames : ∀ name peers, slots.get? name = some peers → IsUpstreamName name
  slotPeers : ∀ name peers, slots.get? name = some peers → ∀ peer ∈ peers, IsPeer peer
  attrNames : ∀ name here, attrs.get? name = some here → IsUpstreamName name
  attrPeers : ∀ name here, attrs.get? name = some here →
    ∀ peer attrs, here.get? peer = some attrs → IsPeer peer

/-! ## Keys -/

section

variable {epoch : Numeral} {name other peer key : List Char}

theorem slotName_eq_some :
    slotName epoch key = some name ↔ key = slotKey name epoch ∧ name ≠ [] :=
  between_eq_some

/-- An attribute key is read exactly when its peer is an address without colons
and a port. -/
theorem attrName_eq_some :
    attrName epoch key = some (name, peer) ↔
      key = attrKey name peer epoch ∧ name ≠ [] ∧
        ∃ host port, peer = host ++ ':' :: port ∧ host ≠ [] ∧ ':' ∉ host ∧
          port ≠ [] ∧ ':' ∉ port ∧ port.all Char.isDigit = true := by
  constructor
  · intro found
    simp only [attrName] at found
    split at found
    · cases found
    · rename_i inner cutEnds
      split at found
      · cases found
      · rename_i front port cutPort
        split at found
        · cases found
        · rename_i first host cutHost
          split at found
          · cases found
          · rename_i filled
            cases found
            obtain ⟨whole, -⟩ := between_eq_some.mp cutEnds
            obtain ⟨rfl, portFree⟩ := lastCut_eq_some.mp cutPort
            obtain ⟨rfl, hostFree⟩ := lastCut_eq_some.mp cutHost
            simp only [Bool.or_eq_true, List.isEmpty_iff, Bool.not_eq_true', not_or,
              Bool.not_eq_false] at filled
            obtain ⟨⟨⟨firstFilled, hostFilled⟩, portFilled⟩, digits⟩ := filled
            refine ⟨?_, firstFilled, host, port, rfl, hostFilled, hostFree, portFilled,
              portFree, digits⟩
            rw [whole]
            simp [attrKey]
  · rintro ⟨rfl, filled, host, port, rfl, hostFilled, hostFree, portFilled, portFree, digits⟩
    have cutEnds : between "attr:".toList (':' :: epoch.text.toList)
        (attrKey name (host ++ ':' :: port) epoch) = some (name ++ ':' :: (host ++ ':' :: port)) :=
      between_eq_some.mpr ⟨rfl, by simp⟩
    have cutPort : lastCut ':' (name ++ ':' :: (host ++ ':' :: port)) =
        some (name ++ ':' :: host, port) :=
      lastCut_eq_some.mpr ⟨by simp, portFree⟩
    have cutHost : lastCut ':' (name ++ ':' :: host) = some (name, host) :=
      lastCut_eq_some.mpr ⟨rfl, hostFree⟩
    have keeps : (name.isEmpty || host.isEmpty || port.isEmpty || !port.all Char.isDigit) =
        false := by
      simp only [digits, List.isEmpty_eq_false_iff.mpr filled,
        List.isEmpty_eq_false_iff.mpr hostFilled, List.isEmpty_eq_false_iff.mpr portFilled,
        Bool.or_self, Bool.not_true]
    rw [attrName, cutEnds]
    dsimp only
    rw [cutPort]
    dsimp only
    rw [cutHost]
    dsimp only
    rw [keeps]
    rfl

theorem slotKey_inj : slotKey name epoch = slotKey other epoch ↔ name = other := by
  simp [slotKey]

theorem attrKey_inj {otherPeer : List Char} :
    attrKey name peer epoch = attrKey other otherPeer epoch ↔
      name ++ ':' :: peer = other ++ ':' :: otherPeer := by
  simp only [attrKey, List.append_cancel_right_eq, List.append_cancel_left_eq]

theorem slotKey_ne_attrKey : slotKey name epoch ≠ attrKey other peer epoch := by
  intro same
  have heads := congrArg (fun key : List Char => key.take 5) same
  simp [slotKey, attrKey] at heads

end

/-! ## Lines -/

section

variable {push : MembershipPush} {epoch : Numeral}

theorem mem_intercalate {separator character : Char} {parts : List (List Char)}
    (member : character ∈ [separator].intercalate parts) :
    character = separator ∨ ∃ part ∈ parts, character ∈ part := by
  induction parts with
  | nil => simp at member
  | cons part rest induction =>
      cases rest with
      | nil => exact .inr ⟨part, by simp, by simpa using member⟩
      | cons next later =>
          rw [List.intercalate_cons_cons, List.mem_append, List.mem_append] at member
          rcases member with (here | between) | there
          · exact .inr ⟨part, by simp, here⟩
          · exact .inl (List.mem_singleton.mp between)
          · rcases induction there with same | ⟨other, otherMember, inside⟩
            · exact .inl same
            · exact .inr ⟨other, List.mem_cons_of_mem _ otherMember, inside⟩

def joined (parts : List String) : List Char := [','].intercalate (parts.map String.toList)

theorem toList_slotLine (name : String) (peers : List String) :
    (slotLine name peers).toList = name.toList ++ '=' :: joined peers := by
  simp [slotLine, joined, String.toList_intercalate]

def attrLine (name : String) (here : OrderedMap String PeerAttrs) : String :=
  "!" ++ name ++ "=" ++ ",".intercalate (attrsEntries here)

theorem toList_attrLine (name : String) (here : OrderedMap String PeerAttrs) :
    (attrLine name here).toList = '!' :: (name.toList ++ '=' :: joined (attrsEntries here)) := by
  simp [attrLine, joined, String.toList_intercalate]

theorem mem_slotsLines {line : String} :
    line ∈ slotsLines push.slots push.attrs ↔
      (∃ name peers, push.slots.get? name = some peers ∧ line = slotLine name peers) ∨
        ∃ name here, push.attrs.get? name = some here ∧ here.entries ≠ [] ∧
          line = attrLine name here := by
  simp only [slotsLines, List.mem_append, List.mem_map, Prod.exists, List.mem_filterMap,
    OrderedMap.mem_entries_iff]
  refine or_congr ⟨?_, ?_⟩ ⟨?_, ?_⟩
  · rintro ⟨name, peers, found, rfl⟩
    exact ⟨name, peers, found, rfl⟩
  · rintro ⟨name, peers, found, rfl⟩
    exact ⟨name, peers, found, rfl⟩
  · rintro ⟨name, here, found, line⟩
    split at line
    · cases line
    · rename_i filled
      exact ⟨name, here, found, by simpa using filled, (Option.some.inj line).symm⟩
  · rintro ⟨name, here, found, filled, rfl⟩
    exact ⟨name, here, found, if_neg (by simpa using filled)⟩

theorem attrsText_characters (attrs : PeerAttrs) :
    ∀ character ∈ (attrsText attrs).toList, character.isDigit = true ∨ character = '|' := by
  intro character member
  simp only [attrsText, String.toList_append, List.mem_append] at member
  rcases member with (limit | bar) | backup
  · cases stored : attrs.softMaxConns with
    | none => simp [stored] at limit
    | some number =>
        rw [stored] at limit
        refine .inl ?_
        by_contra notDigit
        exact DelimitedText.separator_notMem_numeral (by simpa using notDigit) number limit
  · exact .inr (by simpa using bar)
  · split at backup
    · rw [show character = '1' by simpa using backup]
      exact .inl rfl
    · simp at backup

variable {name : String} {here : OrderedMap String PeerAttrs}

theorem entry_free (found : push.attrs.get? name = some here) {separator : Char}
    (notHost : hostCharacter separator = false) (notDigit : separator.isDigit = false)
    (notColon : separator ≠ ':') (notBar : separator ≠ '|') :
    ∀ entry ∈ attrsEntries here, separator ∉ entry.toList := by
  intro entry member inside
  simp only [attrsEntries, List.mem_map, mem_sortedBy, Prod.exists,
    OrderedMap.mem_entries_iff] at member
  obtain ⟨peer, attrs, stored, rfl⟩ := member
  simp only [String.toList_append, List.mem_append] at inside
  rcases inside with (own | bar) | text
  · exact (push.attrPeers name here found peer attrs stored).free notHost notDigit notColon own
  · exact notBar (by simpa using bar)
  · rcases attrsText_characters attrs separator text with digit | bar
    · rw [notDigit] at digit
      cases digit
    · exact notBar bar

theorem line_whole {line : String} (member : line ∈ slotsLines push.slots push.attrs) :
    '\n' ∉ line.toList ∧ line.toList ≠ [] := by
  rcases mem_slotsLines.mp member with ⟨name, peers, found, rfl⟩ | ⟨name, here, found, -, rfl⟩
  · rw [toList_slotLine]
    have named := push.slotNames name peers found
    refine ⟨fun inside => ?_, by simp⟩
    rcases List.mem_append.mp inside with own | later
    · exact named.free (by decide) own
    · rcases List.mem_cons.mp later with equals | list
      · cases equals
      · rcases mem_intercalate list with comma | ⟨part, partMember, there⟩
        · cases comma
        · obtain ⟨peer, peerMember, rfl⟩ := List.mem_map.mp partMember
          exact (push.slotPeers name peers found peer peerMember).free (by decide) (by decide)
            (by decide) there
  · rw [toList_attrLine]
    have named := push.attrNames name here found
    refine ⟨fun inside => ?_, by simp⟩
    rcases List.mem_cons.mp inside with mark | inside
    · cases mark
    rcases List.mem_append.mp inside with own | later
    · exact named.free (by decide) own
    · rcases List.mem_cons.mp later with equals | list
      · cases equals
      · rcases mem_intercalate list with comma | ⟨part, partMember, there⟩
        · cases comma
        · obtain ⟨entry, entryMember, rfl⟩ := List.mem_map.mp partMember
          exact entry_free found (by decide) (by decide) (by decide) (by decide) entry
            entryMember there

theorem takeWhile_lines {lines : List (List Char)} (free : ∀ line ∈ lines, '\n' ∉ line)
    (filled : ∀ line ∈ lines, line ≠ []) :
    streamLines (['\n'].intercalate lines) = lines := by
  have closed : ['\n'].intercalate lines ++ ['\n', '\n'] =
      ['\n'].intercalate (if lines = [] then [[], [], []] else lines ++ [[], []]) := by
    induction lines with
    | nil => rfl
    | cons line rest induction =>
        cases rest with
        | nil => simp [List.intercalate_cons_cons]
        | cons next later =>
            have tail := induction (fun line member => free line (List.mem_cons_of_mem _ member))
              fun line member => filled line (List.mem_cons_of_mem _ member)
            simp only [List.cons_ne_nil, if_false, List.cons_append] at tail ⊢
            rw [List.intercalate_cons_cons, List.append_assoc, tail, List.intercalate_cons_cons]
  have nonempty : ∀ line ∈ lines, (!line.isEmpty) = true := by
    intro line member
    simpa using filled line member
  rw [streamLines, closed]
  by_cases empty : lines = []
  · subst empty
    decide
  · rw [if_neg empty, List.splitOn_intercalate]
    · rw [List.takeWhile_append_of_pos nonempty]
      simp
    · intro line member
      rcases List.mem_append.mp member with own | blank
      · exact free line own
      · simp at blank
        simp [blank]
    · simp

theorem bodyLines_encodeSlots (plane : Plane) :
    bodyLines plane (encodeSlots push.slots push.attrs).toList =
      (sortedBy id (slotsLines push.slots push.attrs)).map String.toList := by
  have free : ∀ line ∈ (sortedBy id (slotsLines push.slots push.attrs)).map String.toList,
      '\n' ∉ line := by
    intro line member
    obtain ⟨text, textMember, rfl⟩ := List.mem_map.mp member
    exact (line_whole (mem_sortedBy.mp textMember)).1
  have filled : ∀ line ∈ (sortedBy id (slotsLines push.slots push.attrs)).map String.toList,
      line ≠ [] := by
    intro line member
    obtain ⟨text, textMember, rfl⟩ := List.mem_map.mp member
    exact (line_whole (mem_sortedBy.mp textMember)).2
  rw [encodeSlots, String.toList_intercalate]
  generalize (sortedBy id (slotsLines push.slots push.attrs)).map String.toList = lines at *
  cases plane with
  | http => exact pieces_intercalate free filled
  | stream => exact takeWhile_lines free filled

theorem lineWrites_slotLine (plane : Plane) (named : IsUpstreamName name)
    (peers : List String) :
    lineWrites plane epoch (slotLine name peers).toList =
      [(slotKey name.toList epoch, joined peers)] := by
  have cut : namedLine (slotLine name peers).toList = some (name.toList, joined peers) := by
    have first := firstCut_eq_some.mpr ⟨toList_slotLine name peers, named.free (by decide)⟩
    rw [namedLine, first]
    simpa using named.1
  cases plane with
  | stream => simp [lineWrites, streamLine, cut]
  | http =>
      have notControl : ∀ control, (slotLine name peers).toList ≠ '!' :: control := by
        intro control same
        rw [toList_slotLine] at same
        obtain ⟨head, rest, shape⟩ := List.exists_cons_of_ne_nil named.1
        rw [shape, List.cons_append, List.cons.injEq] at same
        exact @IsUpstreamName.free _ named '!' (by decide) (by simp [shape, same.1])
      rw [lineWrites, httpLine]
      · simp [cut]
      · exact notControl

theorem httpLine_attrLine (found : push.attrs.get? name = some here) :
    lineWrites .http epoch (attrLine name here).toList =
      (sortedBy Prod.fst here.entries).map fun (peer, attrs) =>
        (attrKey name.toList peer.toList epoch, (attrsText attrs).toList) := by
  have named := push.attrNames name here found
  have cut : namedLine (name.toList ++ '=' :: joined (attrsEntries here)) =
      some (name.toList, joined (attrsEntries here)) := by
    rw [namedLine, firstCut_eq_some.mpr ⟨rfl, named.free (by decide)⟩]
    simpa using named.1
  have apart : pieces ',' (joined (attrsEntries here)) =
      (attrsEntries here).map String.toList := by
    refine pieces_intercalate ?_ ?_
    · intro part member
      obtain ⟨entry, entryMember, rfl⟩ := List.mem_map.mp member
      exact entry_free found (by decide) (by decide) (by decide) (by decide) entry entryMember
    · intro part member
      obtain ⟨entry, entryMember, rfl⟩ := List.mem_map.mp member
      obtain ⟨⟨peer, attrs⟩, -, rfl⟩ := List.mem_map.mp entryMember
      simp
  rw [toList_attrLine, lineWrites, httpLine, cut]
  dsimp only
  rw [apart, attrsEntries, List.map_map, List.filterMap_map, ← List.filterMap_eq_map]
  refine List.filterMap_congr fun entry member => ?_
  obtain ⟨peer, attrs⟩ := entry
  have stored : here.get? peer = some attrs :=
    OrderedMap.mem_entries_iff.mp (mem_sortedBy.mp member)
  have free : '|' ∉ peer.toList :=
    (push.attrPeers name here found peer attrs stored).free (by decide) (by decide) (by decide)
  have first : firstCut '|' (peer ++ "|" ++ attrsText attrs).toList =
      some (peer.toList, (attrsText attrs).toList) :=
    firstCut_eq_some.mpr ⟨by simp, free⟩
  simp only [Function.comp_apply, first, Option.map_some]

theorem streamLine_attrLine (found : push.attrs.get? name = some here) :
    lineWrites .stream epoch (attrLine name here).toList =
      [(slotKey ('!' :: name.toList) epoch, joined (attrsEntries here))] := by
  have named := push.attrNames name here found
  have free : '=' ∉ '!' :: name.toList := by
    intro member
    rcases List.mem_cons.mp member with mark | own
    · cases mark
    · exact named.free (by decide) own
  have cut : namedLine (attrLine name here).toList =
      some ('!' :: name.toList, joined (attrsEntries here)) := by
    rw [namedLine, firstCut_eq_some.mpr ⟨toList_attrLine name here, free⟩]
    rfl
  simp [lineWrites, streamLine, cut]

end

end Barycenter.Control
