import Barycenter.Validate.BindForms

/-!
# The texts of addresses

An IPv4 address is four numbers below 256 in decimal.  An IPv6 address is eight
groups of up to four hexadecimal digits, of which one run may be left out at
`::`, and the last two may be written as an IPv4 address; a zone may follow.
These are all the texts that are taken for addresses.
-/

namespace Barycenter

namespace Validate

/-! ## Spellings -/

/-- Four numbers below 256 in decimal, joined by dots. -/
def DottedQuad (text : List Char) (octets : List Nat) : Prop :=
  octets.length = 4 ∧ (∀ octet ∈ octets, octet < 256) ∧
    text = ['.'].intercalate (octets.map (Nat.toDigits 10))

def HexGroup (group : List Char) : Prop :=
  1 ≤ group.length ∧ group.length ≤ 4 ∧
    ∀ char ∈ group, char ∈ "0123456789abcdefABCDEF".toList

/-- Hexadecimal groups, the last two of which may be a dotted quad. -/
inductive Side : List (List Char) → List Nat → Prop where
  | hexadecimal {groups : List (List Char)} (shaped : ∀ group ∈ groups, HexGroup group) :
      Side groups (groups.map hextetValue)
  | dotted {groups : List (List Char)} {last : List Char} {first second third fourth : Nat}
      (shaped : ∀ group ∈ groups, HexGroup group)
      (quad : DottedQuad last [first, second, third, fourth]) :
      Side (groups ++ [last])
        (groups.map hextetValue ++ [first * 256 + second, third * 256 + fourth])

/-- The text of an IPv6 address without a zone, and its eight numbers. -/
inductive Spelling : List Char → List Nat → Prop where
  | full {groups : List (List Char)} {pieces : List Nat} (side : Side groups pieces)
      (eight : pieces.length = 8) : Spelling ([':'].intercalate groups) pieces
  | shortened {head tail : List (List Char)} {pieces : List Nat}
      (shaped : ∀ group ∈ head, HexGroup group) (side : Side tail pieces)
      (short : head.length + pieces.length ≤ 7) :
      Spelling ([':'].intercalate head ++ ':' :: ':' :: [':'].intercalate tail)
        (expand (head.map hextetValue) pieces)

/-- An address, with a zone that is not empty or without one. -/
def Zoned (text : List Char) (pieces : List Nat) : Prop :=
  ∃ addr, Spelling addr pieces ∧
    (text = addr ∨ ∃ zone, zone ≠ [] ∧ '%' ∉ zone ∧ text = addr ++ '%' :: zone)

/-! ## IPv4 -/

theorem numeral_octet : ∀ number < 256, isV4Octet (Nat.toDigits 10 number) = true ∧
    numberOf (Nat.toDigits 10 number) = number := by
  decide +kernel

variable {text : List Char} {octets : List Nat}

theorem DottedQuad.splitOn (quad : DottedQuad text octets) :
    text.splitOn '.' = octets.map (Nat.toDigits 10) := by
  obtain ⟨four, -, rfl⟩ := quad
  refine List.splitOn_intercalate '.' (fun numeral member => ?_) ?_
  · obtain ⟨octet, -, rfl⟩ := List.mem_map.mp member
    intro dot
    exact absurd (Nat.isDigit_of_mem_toDigits (b := 10) (by decide) (by decide) dot) (by decide)
  · rintro none
    rw [List.map_eq_nil_iff] at none
    simp [none] at four

theorem isIPv4_iff :
    isIPv4 text = true ↔ ∃ octets, DottedQuad text octets := by
  constructor
  · intro valid
    obtain ⟨first, second, third, fourth, parts, octets⟩ := isIPv4_octets valid
    refine ⟨[first, second, third, fourth].map numberOf, rfl, fun octet member => ?_, ?_⟩
    · obtain ⟨part, listed, rfl⟩ := List.mem_map.mp member
      exact Nat.lt_succ_of_le (octets part listed).2
    · have numerals : ([first, second, third, fourth].map numberOf).map (Nat.toDigits 10) =
          [first, second, third, fourth] := by
        rw [List.map_map]
        conv_rhs => rw [← List.map_id [first, second, third, fourth]]
        exact List.map_congr_left fun part listed => toDigits_numberOf (octets part listed).1
      rw [numerals, ← parts]
      exact (List.intercalate_splitOn '.').symm
  · rintro ⟨octets, quad⟩
    simp only [isIPv4, quad.splitOn, List.length_map, quad.1, Bool.and_eq_true,
      decide_eq_true_eq, true_and, List.all_eq_true, List.mem_map]
    rintro part ⟨octet, member, rfl⟩
    obtain ⟨shaped, number⟩ := numeral_octet octet (quad.2.1 octet member)
    exact ⟨shaped, by rw [number]; exact Nat.le_of_lt_succ (quad.2.1 octet member)⟩

theorem numberOf_numeral (small : ∀ octet ∈ octets, octet < 256) :
    (octets.map (Nat.toDigits 10)).map numberOf = octets := by
  rw [List.map_map]
  conv_rhs => rw [← List.map_id octets]
  exact List.map_congr_left fun octet member => (numeral_octet octet (small octet member)).2

theorem DottedQuad.pieces {first second third fourth : Nat}
    (quad : DottedQuad text [first, second, third, fourth]) :
    v4Pieces text = [first * 256 + second, third * 256 + fourth] := by
  rw [v4Pieces, quad.splitOn, numberOf_numeral quad.2.1]

/-! ## Groups -/

theorem hexGroup_iff {group : List Char} : HexGroup group ↔ isHextet group = true := by
  have digit (char : Char) :
      char ∈ "0123456789abcdefABCDEF".toList ↔ isHextet [char] = true := by
    constructor
    · have each : "0123456789abcdefABCDEF".toList.all (fun char => isHextet [char]) = true := by
        decide
      exact List.all_eq_true.mp each char
    · intro shaped
      have ranges : (48 ≤ char.toNat ∧ char.toNat ≤ 57) ∨ (97 ≤ char.toNat ∧ char.toNat ≤ 102) ∨
          (65 ≤ char.toNat ∧ char.toNat ≤ 70) := by
        simpa [isHextet, Char.isDigit, Char.le_def, UInt32.le_iff_toNat_le, or_assoc] using shaped
      have same : char = Char.ofNat char.toNat := (Char.ofNat_toNat char).symm
      generalize char.toNat = code at ranges same
      subst same
      rcases ranges with ⟨low, high⟩ | ⟨low, high⟩ | ⟨low, high⟩ <;> interval_cases code <;> decide
  rw [isHextet_iff, HexGroup]
  simp only [digit]

theorem hextets_iff {groups : List (List Char)} :
    (∀ group ∈ groups, HexGroup group) ↔ Hextets groups := by
  simp only [hexGroup_iff, Hextets]

theorem DottedQuad.separators
    (quad : DottedQuad text octets) : ':' ∉ text ∧ '%' ∉ text ∧ '.' ∈ text ∧ text ≠ [] := by
  obtain ⟨noColon, noZone, dot⟩ := isIPv4_separators (isIPv4_iff.mpr ⟨octets, quad⟩)
  exact ⟨noColon, noZone, dot, List.ne_nil_of_mem dot⟩

variable {pieces : List Nat}

theorem Side.pieces_eq {groups : List (List Char)}
    (side : Side groups pieces) : sidePieces groups = pieces := by
  have hextets {groups : List (List Char)} (shaped : ∀ group ∈ groups, HexGroup group) :
      sidePieces groups = groups.map hextetValue := by
    rw [sidePieces, List.map_eq_flatMap]
    refine List.flatMap_congr fun group member => ?_
    have undotted := (notMem_hextet (hexGroup_iff.mp (shaped group member))).2.1
    rw [groupPieces, if_neg undotted]
  cases side with
  | hexadecimal shaped => exact hextets shaped
  | dotted shaped quad =>
      have last := quad.separators.2.2.1
      rw [sidePieces, List.flatMap_append, ← sidePieces, hextets shaped]
      simp [groupPieces, last, quad.pieces]

theorem Side.groups {groups : List (List Char)} (side : Side groups pieces) :
    Groups groups := by
  cases side with
  | hexadecimal shaped => exact (hextets_iff.mp shaped).groups
  | dotted shaped quad =>
      intro group member
      rcases List.mem_append.mp member with front | last
      · exact (hextets_iff.mp shaped).groups group front
      · rw [List.mem_singleton.mp last]
        exact ⟨quad.separators.2.2.2, quad.separators.1⟩

theorem Side.notMem {groups : List (List Char)} (side : Side groups pieces) :
    ∀ group ∈ groups, '%' ∉ group := by
  cases side with
  | hexadecimal shaped =>
      exact fun group member => (notMem_hextet (hexGroup_iff.mp (shaped group member))).2.2
  | dotted shaped quad =>
      intro group member
      rcases List.mem_append.mp member with front | last
      · exact (notMem_hextet (hexGroup_iff.mp (shaped group front))).2.2
      · rw [List.mem_singleton.mp last]
        exact quad.separators.2.1

theorem side_iff {groups : List (List Char)} :
    (∃ pieces, Side groups pieces) ↔
      Hextets groups ∨ ∃ front last, groups = front ++ [last] ∧ '.' ∈ last ∧
        isIPv4 last = true ∧ Hextets front := by
  constructor
  · rintro ⟨pieces, side⟩
    cases side with
    | hexadecimal shaped => exact .inl (hextets_iff.mp shaped)
    | dotted shaped quad =>
        exact .inr ⟨_, _, rfl, quad.separators.2.2.1, isIPv4_iff.mpr ⟨_, quad⟩,
          hextets_iff.mp shaped⟩
  · rintro (hextets | ⟨front, last, rfl, -, valid, hextets⟩)
    · exact ⟨_, .hexadecimal (hextets_iff.mpr hextets)⟩
    · obtain ⟨octets, quad⟩ := isIPv4_iff.mp valid
      obtain ⟨first, second, third, fourth, rfl⟩ := List.length_eq_four.mp quad.1
      exact ⟨_, .dotted (hextets_iff.mpr hextets) quad⟩

theorem not_dotted_hextet {group : List Char} (dot : '.' ∈ group) : isHextet group ≠ true :=
  fun shaped => (notMem_hextet shaped).2.1 dot

theorem groupsFit_full {groups : List (List Char)} :
    groupsFit false groups [] = true ↔ ∃ pieces, Side groups pieces ∧ pieces.length = 8 := by
  constructor
  · intro fits
    obtain ⟨count, -⟩ := pieces_of_groupsFit fits
    simp only [List.append_nil, Bool.false_eq_true, if_false] at count
    have shaped : ∃ pieces, Side groups pieces := by
      rw [side_iff]
      rw [groupsFit, List.append_nil] at fits
      cases found : groups.getLast? with
      | none =>
          rw [List.getLast?_eq_none_iff.mp found]
          exact .inl fun group member => (List.not_mem_nil member).elim
      | some last =>
          obtain ⟨front, rfl⟩ := List.getLast?_eq_some_iff.mp found
          simp only [found] at fits
          split at fits
          · rename_i dot
            simp only [Bool.and_eq_true, List.dropLast_concat, List.all_eq_true] at fits
            exact .inr ⟨front, last, rfl, dot, fits.1.2, fits.2.1⟩
          · simp only [Bool.and_eq_true, List.all_eq_true] at fits
            exact .inl fits.1
    obtain ⟨pieces, side⟩ := shaped
    exact ⟨pieces, side, by rw [← side.pieces_eq]; exact count⟩
  · rintro ⟨pieces, side, eight⟩
    cases side with
    | hexadecimal shaped =>
        have hextets := hextets_iff.mp shaped
        rw [groupsFit_hextets (by simpa using hextets)]
        simpa using eight
    | dotted shaped quad =>
        rename_i front last first second third fourth
        have valid := isIPv4_iff.mpr ⟨_, quad⟩
        simp only [List.length_append, List.length_map, List.length_cons, List.length_nil] at eight
        simp only [groupsFit, List.append_nil, List.getLast?_concat, quad.separators.2.2.1, valid,
          if_true, List.dropLast_concat, Bool.false_and, Bool.not_false, Bool.true_and,
          Bool.false_eq_true, if_false, Bool.and_eq_true, List.all_eq_true, decide_eq_true_eq,
          List.length_append, List.length_singleton]
        exact ⟨hextets_iff.mp shaped, by omega⟩

/-- What fits around `::` is at most seven numbers, and a dotted quad stands behind it. -/
theorem groupsFit_doubled {head tail : List (List Char)} :
    groupsFit true head tail = true ↔
      Hextets head ∧ ∃ pieces, Side tail pieces ∧ head.length + pieces.length ≤ 7 := by
  have counts (hextets : Hextets head) {pieces : List Nat} (side : Side tail pieces) :
      (sidePieces (head ++ tail)).length = head.length + pieces.length := by
    rw [sidePieces, List.flatMap_append, List.length_append, ← sidePieces, ← sidePieces,
      side.pieces_eq, (sidePieces_hextets hextets).1]
  constructor
  · intro fits
    obtain ⟨count, -⟩ := pieces_of_groupsFit fits
    simp only [if_true] at count
    have shaped : Hextets head ∧ ∃ pieces, Side tail pieces := by
      rw [side_iff]
      rw [groupsFit] at fits
      cases found : (head ++ tail).getLast? with
      | none =>
          obtain ⟨rfl, rfl⟩ := List.append_eq_nil_iff.mp (List.getLast?_eq_none_iff.mp found)
          exact ⟨fun group member => (List.not_mem_nil member).elim,
            .inl fun group member => (List.not_mem_nil member).elim⟩
      | some last =>
          simp only [found] at fits
          split at fits
          · rename_i dot
            simp only [Bool.and_eq_true, Bool.not_eq_true', Bool.and_eq_false_iff,
              decide_eq_false_iff_not, List.all_eq_true] at fits
            obtain ⟨⟨behind, valid⟩, hextets, -⟩ := fits
            have filled : tail ≠ [] := by simpa using behind
            obtain ⟨front, other, rfl⟩ := List.eq_nil_or_concat' tail |>.resolve_left filled
            rw [← List.append_assoc, List.getLast?_concat] at found
            obtain rfl := Option.some.inj found
            rw [← List.append_assoc, List.dropLast_concat] at hextets
            exact ⟨fun group member => hextets group (List.mem_append_left _ member),
              .inr ⟨front, other, rfl, dot, valid,
                fun group member => hextets group (List.mem_append_right _ member)⟩⟩
          · simp only [Bool.and_eq_true, List.all_eq_true] at fits
            exact ⟨fun group member => fits.1 group (List.mem_append_left _ member),
              .inl fun group member => fits.1 group (List.mem_append_right _ member)⟩
    obtain ⟨hextets, pieces, side⟩ := shaped
    exact ⟨hextets, pieces, side, by rw [← counts hextets side]; exact count⟩
  · rintro ⟨hextets, pieces, side, short⟩
    cases side with
    | hexadecimal shaped =>
        rw [groupsFit_hextets]
        · simpa using short
        · intro group member
          rcases List.mem_append.mp member with front | back
          · exact hextets group front
          · exact hextets_iff.mp shaped group back
    | dotted shaped quad =>
        rename_i front last first second third fourth
        have valid := isIPv4_iff.mpr ⟨_, quad⟩
        simp only [List.length_append, List.length_map, List.length_cons, List.length_nil] at short
        rw [groupsFit, ← List.append_assoc]
        simp only [List.getLast?_concat, quad.separators.2.2.1, valid, if_true,
          List.dropLast_concat, Bool.true_and, Bool.and_eq_true, List.all_eq_true,
          decide_eq_true_eq, List.length_append, List.length_singleton]
        refine ⟨by simp, fun group member => ?_, by omega⟩
        rcases List.mem_append.mp member with inHead | inFront
        · exact hextets group inHead
        · exact hextets_iff.mp shaped group inFront

/-! ## IPv6 -/

theorem doubleColons_split {position start : Nat} {others : List Nat}
    (found : doubleColons text position = start :: others) :
    position ≤ start ∧
      text = text.take (start - position) ++ ':' :: ':' :: text.drop (start - position + 2) := by
  induction text generalizing position with
  | nil => cases found
  | cons first rest induction =>
      by_cases here : first = ':' ∧ rest.head? = some ':'
      · obtain ⟨rfl, second⟩ := here
        obtain ⟨rest, rfl⟩ := List.head?_eq_some_iff.mp second
        rw [doubleColons] at found
        obtain ⟨rfl, -⟩ := List.cons.inj found
        simp
      · have onward : doubleColons rest (position + 1) = start :: others := by
          rw [doubleColons] at found
          · exact found
          · rintro rest' rfl rfl
            exact here ⟨rfl, rfl⟩
        obtain ⟨later, same⟩ := induction onward
        obtain ⟨offset, rfl⟩ : ∃ offset, start = position + 1 + offset :=
          ⟨start - (position + 1), by omega⟩
        refine ⟨by omega, ?_⟩
        have shift : position + 1 + offset - position = offset + 1 := by omega
        rw [Nat.add_sub_cancel_left] at same
        rw [shift, List.take_succ_cons, List.cons_append, ← List.drop_drop, List.drop_succ_cons,
          List.drop_drop, ← same]

theorem joined_colonGroups (side : List Char) : [':'].intercalate (colonGroups side) = side := by
  unfold colonGroups
  split
  · rename_i empty
    rw [empty]
    rfl
  · exact List.intercalate_splitOn ':'

theorem isIPv6_plain (zoneless : '%' ∉ text) :
    isIPv6 text = true ↔ ∃ pieces, Spelling text pieces := by
  constructor
  · intro valid
    simp only [isIPv6, withoutZone, if_neg zoneless] at valid
    split at valid
    · obtain ⟨pieces, side, eight⟩ := groupsFit_full.mp valid
      have spelling := Spelling.full side eight
      rw [List.intercalate_splitOn] at spelling
      exact ⟨pieces, spelling⟩
    · rename_i start doubled
      split at valid
      · cases valid
      · change groupsFit true (colonGroups (text.take start))
          (colonGroups (text.drop (start + 2))) = true at valid
        obtain ⟨hextets, pieces, side, short⟩ := groupsFit_doubled.mp valid
        have spelling := Spelling.shortened (hextets_iff.mpr hextets) side short
        have whole := (doubleColons_split doubled).2
        rw [Nat.sub_zero] at whole
        rw [joined_colonGroups, joined_colonGroups, ← whole] at spelling
        exact ⟨_, spelling⟩
    · cases valid
  · rintro ⟨pieces, spelling⟩
    cases spelling with
    | full side eight =>
        rename_i groups
        have plain := doubleColons_plain side.groups
        have filled : groups ≠ [] := by
          rintro rfl
          rw [← side.pieces_eq] at eight
          cases eight
        simp only [isIPv6, withoutZone, if_neg zoneless, plain]
        rw [List.splitOn_intercalate ':' (fun group member => (side.groups group member).2) filled]
        exact groupsFit_full.mpr ⟨_, side, eight⟩
    | shortened shaped side short =>
        rename_i head tail pieces
        have groups := (hextets_iff.mp shaped).groups
        have doubled := doubleColons_shortened groups side.groups
        have noColonBehind : ([':'].intercalate tail).head? ≠ some ':' := by
          cases tail with
          | nil => simp
          | cons group rest => simpa using head?_joined side.groups []
        have back : ([':'].intercalate head ++ ':' :: ':' :: [':'].intercalate tail).drop
            (([':'].intercalate head).length + 2) = [':'].intercalate tail := by
          rw [← List.drop_drop, List.drop_left]
          rfl
        simp only [isIPv6, withoutZone, if_neg zoneless, doubled, List.take_left, back,
          getLast?_joined groups, noColonBehind, decide_false, Bool.or_self, Bool.false_eq_true,
          if_false]
        change groupsFit true (colonGroups ([':'].intercalate head))
          (colonGroups ([':'].intercalate tail)) = true
        rw [colonGroups_joined groups, colonGroups_joined side.groups]
        exact groupsFit_doubled.mpr ⟨hextets_iff.mp shaped, _, side, short⟩

theorem Spelling.zoneless (spelling : Spelling text pieces) :
    '%' ∉ text := by
  cases spelling with
  | full side eight => exact Scanning.notMem_intercalate (by decide) side.notMem
  | shortened shaped side short =>
      simp only [List.mem_append, List.mem_cons, not_or]
      exact ⟨(hextets_iff.mp shaped).notMem_joined.2, by decide, by decide,
        Scanning.notMem_intercalate (by decide) side.notMem⟩

theorem isIPv6_zoned {addr zone : List Char} (zoneless : '%' ∉ addr) :
    isIPv6 (addr ++ '%' :: zone) = true ↔ (zone ≠ [] ∧ '%' ∉ zone) ∧ isIPv6 addr = true := by
  have passes : ∀ char ∈ addr, decide (char ≠ '%') = true :=
    fun char member => decide_eq_true fun same => zoneless (same ▸ member)
  have front : (addr ++ '%' :: zone).takeWhile (· ≠ '%') = addr := by
    rw [List.takeWhile_append_of_pos passes]
    simp
  have back : ((addr ++ '%' :: zone).dropWhile (· ≠ '%')).tail = zone := by
    rw [List.dropWhile_append_of_pos passes]
    simp
  have zoned : withoutZone (addr ++ '%' :: zone) =
      if zone = [] ∨ '%' ∈ zone then none else some addr := by
    rw [withoutZone, if_pos (by simp)]
    simp only [front, back, Bool.or_eq_true, decide_eq_true_eq]
  have plain : withoutZone addr = some addr := if_neg zoneless
  rw [isIPv6, isIPv6, zoned, plain]
  by_cases bare : zone = [] ∨ '%' ∈ zone
  · rw [if_pos bare]
    refine iff_of_false (by simp) ?_
    rintro ⟨⟨filled, single⟩, -⟩
    exact bare.elim filled single
  · rw [if_neg bare]
    rw [not_or] at bare
    exact (and_iff_right bare).symm

theorem isIPv6_iff : isIPv6 text = true ↔ ∃ pieces, Zoned text pieces := by
  by_cases zoned : '%' ∈ text
  · obtain ⟨addr, zone, rfl, zoneless⟩ := List.eq_append_cons_of_mem zoned
    rw [isIPv6_zoned zoneless, isIPv6_plain zoneless]
    constructor
    · rintro ⟨⟨filled, single⟩, pieces, spelling⟩
      exact ⟨pieces, addr, spelling, .inr ⟨zone, filled, single, rfl⟩⟩
    · rintro ⟨pieces, other, spelling, rfl | ⟨otherZone, filled, single, joined⟩⟩
      · exact absurd zoned spelling.zoneless
      · obtain ⟨rfl, rfl⟩ := DelimitedText.split_at_separator zoneless spelling.zoneless joined
        exact ⟨⟨filled, single⟩, pieces, spelling⟩
  · rw [isIPv6_plain zoned]
    constructor
    · rintro ⟨pieces, spelling⟩
      exact ⟨pieces, text, spelling, .inl rfl⟩
    · rintro ⟨pieces, addr, spelling, rfl | ⟨zone, -, -, rfl⟩⟩
      · exact ⟨pieces, spelling⟩
      · exact absurd (by simp) zoned

theorem Spelling.colon (spelling : Spelling text pieces) :
    ':' ∈ text := by
  cases spelling with
  | full side eight =>
      rename_i groups
      rcases groups with _ | ⟨first, _ | ⟨second, rest⟩⟩
      · rw [← side.pieces_eq] at eight
        cases eight
      · have few : (sidePieces [first]).length ≤ 2 := by
          simp only [sidePieces, List.flatMap_cons, List.flatMap_nil, List.append_nil, groupPieces]
          split
          · unfold v4Pieces
            split <;> simp
          · simp
        rw [side.pieces_eq] at few
        omega
      · simp [List.intercalate_cons_cons]
  | shortened shaped side short => simp

/-! ## The version of an address -/

theorem ipVersion_v4_iff {input : String} :
    ipVersion input = some .v4 ↔ ∃ octets, DottedQuad input.toList octets := by
  rw [← isIPv4_iff]
  constructor
  · exact ipVersion_v4
  · exact fun valid => if_pos valid

theorem ipVersion_v6_iff {input : String} :
    ipVersion input = some .v6 ↔ ∃ pieces, Zoned input.toList pieces := by
  rw [← isIPv6_iff]
  constructor
  · intro version
    unfold ipVersion at version
    split at version
    · cases version
    · split at version
      · assumption
      · cases version
  · intro valid
    have other : ¬isIPv4 input.toList = true := by
      intro dotted
      obtain ⟨pieces, addr, spelling, same⟩ := isIPv6_iff.mp valid
      obtain ⟨octets, quad⟩ := isIPv4_iff.mp dotted
      have inside : ':' ∈ input.toList := by
        rcases same with same | ⟨zone, -, -, same⟩
        · rw [same]
          exact spelling.colon
        · rw [same]
          exact List.mem_append_left _ spelling.colon
      exact quad.separators.1 inside
    rw [ipVersion, if_neg other, if_pos valid]

end Validate

end Barycenter
