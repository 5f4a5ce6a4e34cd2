import Barycenter.Validate.AddressTexts
import Barycenter.Validate.Cidr

/-!
# What ranges stand for

An address is read as the number that its octets or groups make.  A range stands
for the addresses that share its network part, and one range covers another
exactly when it contains its addresses.
-/

namespace Barycenter

namespace Validate

/-! ## The number of an address -/

variable {text : List Char}

theorem DottedQuad.bits {octets : List Nat} (quad : DottedQuad text octets) :
    v4Bits text = octets.foldl (fun number octet => number * 256 + octet) 0 := by
  rw [v4Bits, quad.splitOn]
  conv_rhs => rw [← numberOf_numeral quad.2.1]
  simp only [List.foldl_map]

def piecesNumber (pieces : List Nat) : Nat :=
  pieces.foldl (fun number piece => number * 65536 + piece) 0

def groupsNumber (groups : List (List Char)) : Nat :=
  groups.foldl (fun number group => number * 65536 + hexNumber group) 0

theorem hexNumber_eq {group : List Char} (shaped : HexGroup group) :
    hexNumber group = hextetValue group := by
  have each : "0123456789abcdefABCDEF".toList.all
      (fun char => hexValue char = hexDigitValue char) = true := by
    decide
  refine List.foldl_ext _ _ _ fun number char member => ?_
  have same := List.all_eq_true.mp each char (shaped.2.2 char member)
  rw [of_decide_eq_true same]

variable {groups : List (List Char)}

theorem groupsNumber_hextets (shaped : ∀ group ∈ groups, HexGroup group) :
    groupsNumber groups = piecesNumber (groups.map hextetValue) := by
  rw [groupsNumber, piecesNumber, List.foldl_map]
  exact List.foldl_ext _ _ _ fun number group member => by rw [hexNumber_eq (shaped group member)]

def lead (groups : List (List Char)) : List Char := groups.flatMap (· ++ [':'])

theorem joined_concat (groups : List (List Char)) (last : List Char) :
    [':'].intercalate (groups ++ [last]) = lead groups ++ last := by
  induction groups with
  | nil => simp [lead]
  | cons group rest induction =>
      rw [List.cons_append, lead, List.flatMap_cons, ← lead, List.append_assoc, List.append_assoc,
        ← induction]
      cases rest <;> simp [List.intercalate_cons_cons]

theorem joined_zeros (groups : List (List Char)) :
    [':'].intercalate (groups ++ [['0'], ['0']]) = lead groups ++ "0:0".toList := by
  have split : groups ++ [['0'], ['0']] = (groups ++ [['0']]) ++ [['0']] := by simp
  rw [split, joined_concat, lead, List.flatMap_append, ← lead, List.append_assoc]
  rfl

theorem lead_ends (filled : groups ≠ []) :
    (lead groups).getLast? = some ':' := by
  obtain ⟨front, last, rfl⟩ := (List.eq_nil_or_concat' groups).resolve_left filled
  rw [lead, List.flatMap_append]
  simp

theorem v6Groups_full (shaped : Groups groups) (filled : groups ≠ []) :
    v6Groups ([':'].intercalate groups) = groups := by
  rw [v6Groups, doubleColons_plain shaped]
  exact List.splitOn_intercalate ':' (fun group member => (shaped group member).2) filled

theorem v6Groups_shortened {head tail : List (List Char)} (headShaped : Groups head)
    (tailShaped : Groups tail) :
    v6Groups ([':'].intercalate head ++ ':' :: ':' :: [':'].intercalate tail) =
      head ++ List.replicate (8 - head.length - tail.length) ['0'] ++ tail := by
  have back : ([':'].intercalate head ++ ':' :: ':' :: [':'].intercalate tail).drop
      (([':'].intercalate head).length + 2) = [':'].intercalate tail := by
    rw [← List.drop_drop, List.drop_left]
    rfl
  rw [v6Groups, doubleColons_shortened headShaped tailShaped]
  simp only [List.take_left, back]
  change colonGroups ([':'].intercalate head) ++ List.replicate
    (8 - (colonGroups ([':'].intercalate head)).length -
      (colonGroups ([':'].intercalate tail)).length) ['0'] ++
        colonGroups ([':'].intercalate tail) = _
  rw [colonGroups_joined headShaped, colonGroups_joined tailShaped]

variable {before last : List Char}

theorem v6Bits_of_last (ends : before.getLast? = some ':')
    (free : ':' ∉ last) :
    v6Bits (before ++ last) =
      if '.' ∈ last then
        groupsNumber (v6Groups (before ++ "0:0".toList)) / 2 ^ 32 * 2 ^ 32 + v4Bits last
      else groupsNumber (v6Groups (before ++ last)) := by
  obtain ⟨front, rfl⟩ := List.getLast?_eq_some_iff.mp ends
  have passes : ∀ char ∈ last.reverse, decide (char ≠ ':') = true :=
    fun char member => decide_eq_true fun same => free (same ▸ List.mem_reverse.mp member)
  have tailPart : ((front ++ [':'] ++ last).reverse.takeWhile (· ≠ ':')).reverse = last := by
    rw [List.reverse_append, List.takeWhile_append_of_pos passes]
    simp
  have before : (front ++ [':'] ++ last).take ((front ++ [':'] ++ last).length - last.length) =
      front ++ [':'] := by
    rw [List.length_append, Nat.add_sub_cancel, List.take_left]
  rw [v6Bits, tailPart]
  simp only [before]
  rfl

theorem bits_hexadecimal
    (ends : before.getLast? = some ':') (free : ':' ∉ last) (undotted : '.' ∉ last)
    (reads : v6Groups (before ++ last) = groups) (shaped : ∀ group ∈ groups, HexGroup group) :
    v6Bits (before ++ last) = piecesNumber (groups.map hextetValue) := by
  rw [v6Bits_of_last ends free, if_neg undotted, reads, groupsNumber_hextets shaped]

theorem bits_dotted {first second third fourth : Nat} (ends : before.getLast? = some ':')
    (quad : DottedQuad last [first, second, third, fourth])
    (reads : v6Groups (before ++ "0:0".toList) = groups ++ [['0'], ['0']])
    (shaped : ∀ group ∈ groups, HexGroup group) :
    v6Bits (before ++ last) =
      piecesNumber (groups.map hextetValue ++ [first * 256 + second, third * 256 + fourth]) := by
  obtain ⟨noColon, -, dot, -⟩ := quad.separators
  have zeros : groupsNumber (groups ++ [['0'], ['0']]) = groupsNumber groups * 2 ^ 32 := by
    rw [groupsNumber, List.foldl_append, ← groupsNumber]
    simp only [List.foldl_cons, List.foldl_nil]
    have zero : hexNumber ['0'] = 0 := rfl
    rw [zero]
    omega
  rw [v6Bits_of_last ends noColon, if_pos dot, reads, zeros, Nat.mul_div_cancel _ (by decide),
    groupsNumber_hextets shaped, quad.bits, piecesNumber, piecesNumber, List.foldl_append]
  simp only [List.foldl_cons, List.foldl_nil]
  omega

theorem hexGroup_zero : HexGroup ['0'] := by
  refine ⟨by decide, by decide, ?_⟩
  simp

theorem zero_groups (shaped : ∀ group ∈ groups, HexGroup group) :
    Hextets (groups ++ [['0'], ['0']]) := by
  intro group member
  rcases List.mem_append.mp member with front | zero
  · exact hexGroup_iff.mp (shaped group front)
  · rcases List.mem_pair.mp zero with rfl | rfl <;> decide

theorem shortened_concat (head front : List (List Char)) (last : List Char) :
    [':'].intercalate head ++ ':' :: ':' :: [':'].intercalate (front ++ [last]) =
      [':'].intercalate head ++ ':' :: ':' :: lead front ++ last := by
  rw [joined_concat]
  simp

theorem colons_end (start : List Char) (groups : List (List Char)) :
    (start ++ ':' :: ':' :: lead groups).getLast? = some ':' := by
  rcases eq_or_ne groups [] with rfl | filled
  · simp [lead]
  · have ends := lead_ends filled
    have split : start ++ ':' :: ':' :: lead groups = (start ++ [':', ':']) ++ lead groups := by
      simp
    have some : lead groups ≠ [] := by
      intro none
      simp [none] at ends
    rw [split, List.getLast?_append_of_ne_nil _ some, ends]

variable {pieces : List Nat}

theorem Spelling.bits (spelling : Spelling text pieces) :
    v6Bits text = piecesNumber pieces := by
  have padded {head : List (List Char)} (shaped : ∀ group ∈ head, HexGroup group) (count : Nat)
      {tail : List (List Char)} (tailShaped : ∀ group ∈ tail, HexGroup group) :
      ∀ group ∈ head ++ List.replicate count ['0'] ++ tail, HexGroup group := by
    intro group member
    rcases List.mem_append.mp member with front | back
    · rcases List.mem_append.mp front with inHead | zero
      · exact shaped group inHead
      · rw [List.eq_of_mem_replicate zero]
        exact hexGroup_zero
    · exact tailShaped group back
  have value : hextetValue ['0'] = 0 := rfl
  cases spelling with
  | full side eight =>
      cases side with
      | hexadecimal shaped =>
          rename_i groups
          have filled : groups ≠ [] := by
            rintro rfl
            cases eight
          obtain ⟨front, last, rfl⟩ := (List.eq_nil_or_concat' groups).resolve_left filled
          have hextets := hextets_iff.mp shaped
          have lastFree := notMem_hextet (hextets last (by simp))
          have more : front ≠ [] := by
            rintro rfl
            cases eight
          rw [joined_concat]
          refine bits_hexadecimal (lead_ends more) lastFree.1 lastFree.2.1 ?_ shaped
          rw [← joined_concat, v6Groups_full hextets.groups filled]
      | dotted shaped quad =>
          rename_i front last first second third fourth
          have more : front ≠ [] := by
            rintro rfl
            cases eight
          rw [joined_concat]
          refine bits_dotted (lead_ends more) quad ?_ shaped
          rw [← joined_zeros, v6Groups_full (zero_groups shaped).groups (by simp)]
  | shortened shaped side short =>
      rename_i head tail pieces
      have headGroups := (hextets_iff.mp shaped).groups
      cases side with
      | hexadecimal tailShaped =>
          have tailHextets := hextets_iff.mp tailShaped
          have reads := v6Groups_shortened headGroups tailHextets.groups
          have values : ((head ++ List.replicate (8 - head.length - tail.length) ['0'] ++ tail).map
              hextetValue) = expand (head.map hextetValue) (tail.map hextetValue) := by
            simp [expand, value]
          rw [← values]
          rcases List.eq_nil_or_concat' tail with rfl | ⟨front, last, rfl⟩
          · have text : [':'].intercalate head ++ ':' :: ':' :: [':'].intercalate [] =
                ([':'].intercalate head ++ [':', ':']) ++ [] := by simp
            rw [text] at reads ⊢
            exact bits_hexadecimal (by simp) List.not_mem_nil List.not_mem_nil reads
              (padded shaped _ tailShaped)
          · have lastFree := notMem_hextet (tailHextets last (by simp))
            rw [shortened_concat] at reads ⊢
            exact bits_hexadecimal (colons_end _ _) lastFree.1 lastFree.2.1 reads (padded shaped _ tailShaped)
      | dotted tailShaped quad =>
          rename_i front last first second third fourth
          have reads : v6Groups ([':'].intercalate head ++ ':' :: ':' :: lead front ++
              "0:0".toList) = head ++ List.replicate (8 - head.length - (front.length + 2)) ['0'] ++
                front ++ [['0'], ['0']] := by
            have whole := v6Groups_shortened headGroups (zero_groups tailShaped).groups
            rw [joined_zeros] at whole
            simpa using whole
          rw [shortened_concat, bits_dotted (colons_end _ _) quad reads (padded shaped _ tailShaped)]
          simp [expand, value]

/-! ## Ranges -/

/-- The text of an address without a zone, with its family and its number. -/
inductive Names : List Char → Family → Nat → Prop where
  | v4 {text : List Char} {octets : List Nat} (quad : DottedQuad text octets) :
      Names text .v4 (octets.foldl (fun number octet => number * 256 + octet) 0)
  | v6 {text : List Char} {pieces : List Nat} (spelling : Spelling text pieces) :
      Names text .v6 (piecesNumber pieces)

/-- An address, or an address and the length of its network part. -/
inductive CidrText : List Char → Family → Nat → Nat → Prop where
  | single {addr : List Char} {family : Family} {number : Nat}
      (names : Names addr family number) : CidrText addr family number (widthOf family)
  | network {addr : List Char} {family : Family} {number length : Nat}
      (names : Names addr family number) (fits : length ≤ widthOf family) :
      CidrText (addr ++ '/' :: Nat.toDigits 10 length) family number length

/-- An address whose network part is the one that the range names. -/
def InRange (cidr : String) (family : Family) (number : Nat) : Prop :=
  ∃ base length, CidrText cidr.toList family base length ∧ number < 2 ^ widthOf family ∧
    number / 2 ^ (widthOf family - length) = base / 2 ^ (widthOf family - length)

/-! ### The numbers are small -/

theorem foldl_lt {base : Nat} {digits : List Nat} (small : ∀ digit ∈ digits, digit < base) :
    digits.foldl (fun number digit => number * base + digit) 0 < base ^ digits.length := by
  induction digits using List.reverseRecOn with
  | nil => simp
  | append_singleton front last induction =>
      have earlier := induction fun digit member => small digit (List.mem_append_left _ member)
      have final := small last (by simp)
      rw [List.foldl_append, List.length_append, List.length_singleton, pow_succ]
      simp only [List.foldl_cons, List.foldl_nil]
      calc front.foldl (fun number digit => number * base + digit) 0 * base + last
          < front.foldl (fun number digit => number * base + digit) 0 * base + base := by omega
        _ = (front.foldl (fun number digit => number * base + digit) 0 + 1) * base :=
          (Nat.succ_mul _ _).symm
        _ ≤ base ^ front.length * base := Nat.mul_le_mul_right _ earlier

theorem Side.small (side : Side groups pieces) :
    ∀ piece ∈ pieces, piece < 65536 := by
  have hextets {groups : List (List Char)} (shaped : ∀ group ∈ groups, HexGroup group) :
      ∀ piece ∈ groups.map hextetValue, piece < 65536 := by
    have pieces := (sidePieces_hextets (hextets_iff.mp shaped)).2
    rwa [(Side.hexadecimal shaped).pieces_eq] at pieces
  cases side with
  | hexadecimal shaped => exact hextets shaped
  | dotted shaped quad =>
      intro piece member
      rcases List.mem_append.mp member with front | last
      · exact hextets shaped piece front
      · have octets := quad.2.1
        simp only [List.forall_mem_cons] at octets
        obtain ⟨first, second, third, fourth, -⟩ := octets
        rcases List.mem_pair.mp last with rfl | rfl <;> omega

theorem Spelling.eight (spelling : Spelling text pieces) :
    EightPieces pieces := by
  cases spelling with
  | full side eight => exact ⟨eight, side.small⟩
  | shortened shaped side short =>
      have head := (Side.hexadecimal shaped).small
      refine ⟨?_, fun piece member => ?_⟩
      · simp only [expand, List.length_append, List.length_replicate, List.length_map]
        omega
      · simp only [expand, List.mem_append, List.mem_replicate] at member
        rcases member with (front | ⟨-, rfl⟩) | back
        · exact head piece front
        · decide
        · exact side.small piece back

variable {family : Family} {number : Nat}

theorem Names.small (names : Names text family number) : number < 2 ^ widthOf family := by
  cases names with
  | v4 quad =>
      have small := foldl_lt quad.2.1
      rwa [quad.1] at small
  | v6 spelling =>
      have small := foldl_lt spelling.eight.2
      rwa [spelling.eight.1] at small

/-! ### Reading ranges -/

theorem Spelling.free {char : Char}
    (spelling : Spelling text pieces) (foreign : isHextet [char] = false)
    (apart : char ≠ ':' ∧ char ≠ '.') : char ∉ text := by
  have hextets {groups : List (List Char)} (shaped : ∀ group ∈ groups, HexGroup group) :
      ∀ group ∈ groups, char ∉ group := by
    intro group member inside
    have digit := (isHextet_iff.mp (hexGroup_iff.mp (shaped group member))).2.2 char inside
    rw [foreign] at digit
    cases digit
  have sides {groups : List (List Char)} {pieces : List Nat} (side : Side groups pieces) :
      char ∉ [':'].intercalate groups := by
    refine Scanning.notMem_intercalate (by simpa using apart.1) ?_
    cases side with
    | hexadecimal shaped => exact hextets shaped
    | dotted shaped quad =>
        intro group member inside
        rcases List.mem_append.mp member with front | last
        · exact hextets shaped group front inside
        · rw [List.mem_singleton.mp last] at inside
          rcases isIPv4_chars (isIPv4_iff.mpr ⟨_, quad⟩) inside with dot | digit
          · exact apart.2 dot
          · simp [isHextet, digit] at foreign
  cases spelling with
  | full side eight => exact sides side
  | shortened shaped side short =>
      simp only [List.mem_append, List.mem_cons, not_or]
      exact ⟨sides (.hexadecimal shaped), apart.1, apart.1, sides side⟩

theorem Names.free {char : Char}
    (names : Names text family number) (foreign : isHextet [char] = false)
    (apart : char ≠ ':' ∧ char ≠ '.') : char ∉ text := by
  cases names with
  | v4 quad =>
      intro inside
      rcases isIPv4_chars (isIPv4_iff.mpr ⟨_, quad⟩) inside with dot | digit
      · exact apart.2 dot
      · simp [isHextet, digit] at foreign
  | v6 spelling => exact spelling.free foreign apart

variable {addr : List Char}

theorem ipBits_iff :
    ipBits addr = some (family, number) ↔ Names addr family number := by
  constructor
  · intro read
    unfold ipBits at read
    split at read
    · cases read
    rename_i zoneless
    split at read
    · cases read
    · rename_i version
      cases read
      obtain ⟨octets, quad⟩ := ipVersion_v4_iff.mp version
      rw [String.toList_ofList] at quad
      rw [quad.bits]
      exact .v4 quad
    · rename_i version
      cases read
      obtain ⟨pieces, zoned⟩ := ipVersion_v6_iff.mp version
      rw [String.toList_ofList] at zoned
      obtain ⟨other, spelling, rfl | ⟨zone, -, -, rfl⟩⟩ := zoned
      · rw [spelling.bits]
        exact .v6 spelling
      · exact absurd (by simp) zoneless
  · intro names
    have zoneless := names.free (show isHextet ['%'] = false by decide) ⟨by decide, by decide⟩
    rw [ipBits, if_neg zoneless]
    cases names with
    | v4 quad =>
        have version : ipVersion (String.ofList addr) = some .v4 :=
          ipVersion_v4_iff.mpr ⟨_, by rwa [String.toList_ofList]⟩
        simp only [version]
        rw [quad.bits]
    | v6 spelling =>
        have version : ipVersion (String.ofList addr) = some .v6 :=
          ipVersion_v6_iff.mpr ⟨_, addr, spelling, .inl (String.toList_ofList)⟩
        simp only [version]
        rw [spelling.bits]

variable {input : String}

theorem cidrParts_plain (unslashed : '/' ∉ input.toList) :
    cidrParts input = (input.toList, none) := by
  have passes : ∀ char ∈ input.toList, decide (char ≠ '/') = true :=
    fun char member => decide_eq_true fun same => unslashed (same ▸ member)
  have whole : input.toList.takeWhile (fun char => decide (char ≠ '/')) = input.toList :=
    List.takeWhile_eq_self_iff.mpr passes
  rw [cidrParts]
  simp only [whole, if_neg unslashed]

theorem cidrParts_slashed {digits : List Char} (unslashed : '/' ∉ addr)
    (joined : input.toList = addr ++ '/' :: digits) : cidrParts input = (addr, some digits) := by
  have passes : ∀ char ∈ addr, decide (char ≠ '/') = true :=
    fun char member => decide_eq_true fun same => unslashed (same ▸ member)
  have front : (addr ++ '/' :: digits).takeWhile (· ≠ '/') = addr := by
    rw [List.takeWhile_append_of_pos passes]
    simp
  have back : ((addr ++ '/' :: digits).dropWhile (· ≠ '/')).tail = digits := by
    rw [List.dropWhile_append_of_pos passes]
    simp
  rw [cidrParts, joined]
  simp only [front, back]
  rw [if_pos (by simp)]

theorem ipVersion_of_names
    (names : Names addr family number) : ipVersion (String.ofList addr) = some family := by
  cases names with
  | v4 quad => exact ipVersion_v4_iff.mpr ⟨_, by rwa [String.toList_ofList]⟩
  | v6 spelling => exact ipVersion_v6_iff.mpr ⟨_, addr, spelling, .inl (String.toList_ofList)⟩

theorem names_of_ipVersion (zoneless : '%' ∉ addr)
    (version : ipVersion (String.ofList addr) = some family) : ∃ number, Names addr family number := by
  have read : ∃ number, ipBits addr = some (family, number) := by
    rw [ipBits, if_neg zoneless, version]
    cases family <;> exact ⟨_, rfl⟩
  obtain ⟨number, read⟩ := read
  exact ⟨number, ipBits_iff.mp read⟩

theorem widthOf_le (family : Family) : widthOf family ≤ 128 := by
  cases family <;> decide

variable {length : Nat}

theorem cidr_of_text (text : CidrText input.toList family number length) :
    cidrVersion input = some family ∧
      networkOf input = some ⟨family, number / 2 ^ (widthOf family - length) *
        2 ^ (widthOf family - length), length⟩ := by
  generalize same : input.toList = chars at text
  cases text with
  | single names =>
      have unslashed : '/' ∉ input.toList :=
        same ▸ names.free (by decide) ⟨by decide, by decide⟩
      have zoneless := names.free (show isHextet ['%'] = false by decide) ⟨by decide, by decide⟩
      have parts := cidrParts_plain unslashed
      have version : cidrVersion input = some family := by
        rw [cidrVersion, parts]
        simp only [same, if_neg zoneless, ipVersion_of_names names]
      refine ⟨version, ?_⟩
      rw [networkOf, version, parts, same, ipBits_iff.mpr names]
  | network names fits =>
      rename_i addr
      have unslashed := names.free (show isHextet ['/'] = false by decide) ⟨by decide, by decide⟩
      have zoneless := names.free (show isHextet ['%'] = false by decide) ⟨by decide, by decide⟩
      have parts := cidrParts_slashed unslashed same
      have small : length < 256 := by
        have width := widthOf_le family
        omega
      obtain ⟨shaped, value⟩ := numeral_octet length small
      have numeral : isPrefixLength (Nat.toDigits 10 length) = true := shaped
      have version : cidrVersion input = some family := by
        rw [cidrVersion, parts]
        simp only [if_neg zoneless, ipVersion_of_names names, numeral, value, fits, decide_true,
          Bool.and_self, if_true]
      refine ⟨version, ?_⟩
      rw [networkOf, version, parts, ipBits_iff.mpr names]
      simp only [value]

theorem text_of_cidr (version : cidrVersion input = some family) :
    ∃ number length, CidrText input.toList family number length := by
  by_cases slashed : '/' ∈ input.toList
  · obtain ⟨addr, digits, joined, unslashed⟩ := List.eq_append_cons_of_mem slashed
    rw [cidrVersion, cidrParts_slashed unslashed joined] at version
    simp only at version
    split at version
    · cases version
    rename_i zoneless
    split at version
    · cases version
    · rename_i none
      cases none
    · rename_i found other known digit
      cases digit
      split at version
      · rename_i accepted
        cases version
        simp only [Bool.and_eq_true, decide_eq_true_eq] at accepted
        obtain ⟨number, names⟩ := names_of_ipVersion zoneless known
        have numeral : Nat.toDigits 10 (numberOf digits) = digits := toDigits_numberOf accepted.1
        have range := CidrText.network names accepted.2
        rw [numeral, ← joined] at range
        exact ⟨number, _, range⟩
      · cases version
  · rw [cidrVersion, cidrParts_plain slashed] at version
    simp only at version
    split at version
    · cases version
    rename_i zoneless
    split at version
    · cases version
    · rename_i known none
      cases version
      obtain ⟨number, names⟩ := names_of_ipVersion zoneless known
      exact ⟨number, _, .single names⟩
    · rename_i impossible
      cases impossible

theorem CidrText.fits (range : CidrText text family number length) :
    length ≤ widthOf family ∧ number < 2 ^ widthOf family := by
  cases range with
  | single names => exact ⟨Nat.le_refl _, names.small⟩
  | network names fits => exact ⟨fits, names.small⟩

theorem inRange_iff {cidr : String} {base : Nat}
    (text : CidrText cidr.toList family base length) :
    InRange cidr family number ↔ number < 2 ^ widthOf family ∧
      number / 2 ^ (widthOf family - length) = base / 2 ^ (widthOf family - length) := by
  constructor
  · rintro ⟨other, otherLength, range, small, same⟩
    have first := (cidr_of_text text).2
    rw [(cidr_of_text range).2] at first
    obtain ⟨-, bases, rfl⟩ := Network.mk.inj (Option.some.inj first)
    rw [Nat.mul_left_inj (by positivity)] at bases
    exact ⟨small, same.trans bases⟩
  · rintro ⟨small, same⟩
    exact ⟨base, length, text, small, same⟩

/-! ## Covering -/

/-- A block of addresses is inside another one exactly when it is not longer and
starts in it. -/
theorem block_inside {width wideHost narrowHost wideBlock narrow : Nat}
    (narrowFits : narrowHost ≤ width) (small : narrow < 2 ^ width) :
    (∀ number < 2 ^ width, number / 2 ^ narrowHost = narrow / 2 ^ narrowHost →
        number / 2 ^ wideHost = wideBlock) ↔
      narrowHost ≤ wideHost ∧
        narrow / 2 ^ narrowHost * 2 ^ narrowHost / 2 ^ wideHost = wideBlock := by
  have positive : 0 < 2 ^ narrowHost := by positivity
  constructor
  · intro inside
    obtain ⟨rest, rfl⟩ := Nat.exists_eq_add_of_le narrowFits
    have blocks : narrow / 2 ^ narrowHost < 2 ^ rest := by
      rw [Nat.div_lt_iff_lt_mul positive, ← pow_add, Nat.add_comm rest]
      exact small
    generalize narrow / 2 ^ narrowHost = block at inside blocks ⊢
    have room : (block + 1) * 2 ^ narrowHost ≤ 2 ^ (narrowHost + rest) := by
      rw [Nat.add_comm narrowHost, pow_add]
      exact Nat.mul_le_mul_right _ blocks
    rw [Nat.succ_mul] at room
    have first := inside (block * 2 ^ narrowHost) (by omega) (Nat.mul_div_cancel _ positive)
    refine ⟨?_, first⟩
    by_contra longer
    have last := inside (block * 2 ^ narrowHost + (2 ^ narrowHost - 1)) (by omega) (by
      rw [Nat.mul_comm, Nat.mul_add_div positive, Nat.div_eq_of_lt (by omega), Nat.add_zero])
    obtain ⟨more, rfl⟩ := Nat.exists_eq_add_of_lt (Nat.not_le.mp longer)
    have double : 2 ^ (wideHost + more + 1) = 2 ^ wideHost * 2 ^ (more + 1) := by
      rw [← pow_add, Nat.add_assoc]
    have two : 2 ≤ 2 ^ (more + 1) := by
      rw [pow_succ]
      have one : 0 < 2 ^ more := by positivity
      omega
    have wide : 0 < 2 ^ wideHost := by positivity
    have below : 2 ^ wideHost ≤ 2 ^ (wideHost + more + 1) - 1 := by
      rw [double]
      have twice := Nat.mul_le_mul_left (2 ^ wideHost) two
      omega
    have aligned : block * 2 ^ (wideHost + more + 1) =
        2 ^ wideHost * (block * 2 ^ (more + 1)) := by
      rw [double, Nat.mul_left_comm]
    rw [aligned, Nat.mul_add_div wide] at last
    rw [aligned, Nat.mul_div_cancel_left _ wide] at first
    have step : 1 ≤ (2 ^ (wideHost + more + 1) - 1) / 2 ^ wideHost :=
      (Nat.one_le_div_iff wide).mpr below
    omega
  · rintro ⟨shorter, start⟩ number - same
    obtain ⟨more, rfl⟩ := Nat.exists_eq_add_of_le shorter
    rw [pow_add, ← Nat.div_div_eq_div_mul] at start ⊢
    rw [Nat.mul_div_cancel _ positive] at start
    rw [same, start]

theorem cidrCovers_iff (outer inner : String) :
    cidrCovers outer inner = true ↔
      ∃ family, cidrVersion outer = some family ∧ cidrVersion inner = some family ∧
        ∀ number, InRange inner family number → InRange outer family number := by
  have unread {input : String} (other : cidrVersion input = none) : networkOf input = none := by
    rw [networkOf, other]
  constructor
  · intro covers
    cases wideVersion : cidrVersion outer with
    | none => simp [cidrCovers, unread wideVersion] at covers
    | some family =>
        cases narrowVersion : cidrVersion inner with
        | none => simp [cidrCovers, unread narrowVersion] at covers
        | some other =>
            obtain ⟨wide, length, wideText⟩ := text_of_cidr wideVersion
            obtain ⟨narrow, narrowLength, narrowText⟩ := text_of_cidr narrowVersion
            simp only [cidrCovers, (cidr_of_text wideText).2, (cidr_of_text narrowText).2,
              Bool.and_eq_true, decide_eq_true_eq] at covers
            obtain ⟨⟨rfl, shorter⟩, start⟩ := covers
            refine ⟨family, rfl, rfl, fun number member => ?_⟩
            rw [inRange_iff narrowText] at member
            rw [inRange_iff wideText]
            obtain ⟨small, same⟩ := member
            rw [Nat.mul_left_inj (by positivity)] at start
            refine ⟨small, (block_inside (Nat.sub_le _ _) narrowText.fits.2).mpr
              ⟨by omega, start⟩ number small same⟩
  · rintro ⟨family, wideVersion, narrowVersion, inside⟩
    obtain ⟨wide, length, wideText⟩ := text_of_cidr wideVersion
    obtain ⟨narrow, narrowLength, narrowText⟩ := text_of_cidr narrowVersion
    have block := (block_inside (Nat.sub_le _ narrowLength) narrowText.fits.2).mp
      fun number small same =>
        ((inRange_iff wideText).mp (inside number ((inRange_iff narrowText).mpr ⟨small, same⟩))).2
    have wideFits := wideText.fits.1
    have narrowFits := narrowText.fits.1
    simp only [cidrCovers, (cidr_of_text wideText).2, (cidr_of_text narrowText).2,
      Bool.and_eq_true, decide_eq_true_eq, block.2, and_true, true_and]
    omega

/-- Covering is inclusion, and the texts of addresses are exactly the ones that
are described. -/
theorem address_texts_exact :
    (∀ outer inner, cidrCovers outer inner = true ↔
      ∃ family, cidrVersion outer = some family ∧ cidrVersion inner = some family ∧
        ∀ number, InRange inner family number → InRange outer family number) ∧
      (∀ input, ipVersion input = some .v4 ↔ ∃ octets, DottedQuad input.toList octets) ∧
        ∀ input, ipVersion input = some .v6 ↔ ∃ pieces, Zoned input.toList pieces :=
  ⟨cidrCovers_iff, fun _ => ipVersion_v4_iff, fun _ => ipVersion_v6_iff⟩

end Validate

end Barycenter
