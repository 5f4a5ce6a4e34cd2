import Barycenter.Validate.BindSequence
import Barycenter.Validate.Ipv6Text

/-!
# Spellings of a bind address

An IPv4 address has one accepted text.  An IPv6 address has many, and all of
them are brought into one canonical text, with one exception: an address that
embeds an IPv4 address is folded to that address when it is written in the one
form with `::ffff:` and dots, and stays an IPv6 address in every other form.
-/

namespace Barycenter

namespace Validate

/-- The platform with the reading and writing of the URL parser. -/
def urlPlatform (localeCompare : String → String → Ordering) : Platform where
  canonicalV6 := canonicalIPv6
  localeCompare := localeCompare

/-! ## Addresses -/

/-- An address, whatever its text.  An embedded IPv4 address is that address. -/
inductive Address where
  | v4 (pieces : List Nat)
  | v6 (pieces : List Nat)
  deriving DecidableEq, Repr

def embedsV4 (pieces : List Nat) : Bool := pieces.take 6 = [0, 0, 0, 0, 0, 65535]

def addressOf (input : String) : Option Address :=
  if isIPv4 input.toList then some (.v4 (v4Pieces input.toList))
  else
    (parseIPv6 input.toList).map fun pieces =>
      if embedsV4 pieces then .v4 (pieces.drop 6) else .v6 pieces

/-- An IPv6 text with an embedded address that is not folded. -/
def Unfolded (input : String) : Prop :=
  v4Mapped input.toList = none ∧ ∃ pieces, parseIPv6 input.toList = some pieces ∧
    embedsV4 pieces = true

/-! ## Octets -/

variable {char : Char}

theorem digitChar_digit (digit : char.isDigit = true) :
    (char.toNat - '0'.toNat).digitChar = char := by
  have range : 48 ≤ char.toNat ∧ char.toNat ≤ 57 := by
    simpa [Char.isDigit, UInt32.le_iff_toNat_le] using digit
  have same : char = Char.ofNat char.toNat := (Char.ofNat_toNat char).symm
  obtain ⟨low, high⟩ := range
  generalize char.toNat = code at low high same
  subst same
  interval_cases code <;> decide

theorem numberOf_concat (front : List Char) (last : Char) :
    numberOf (front ++ [last]) = numberOf front * 10 + (last.toNat - '0'.toNat) := by
  simp [numberOf]

theorem toDigits_numberOf {octet : List Char} (valid : isV4Octet octet = true) :
    Nat.toDigits 10 (numberOf octet) = octet := by
  have numeral : ∀ digits : List Char, (∀ char ∈ digits, char.isDigit = true) →
      (∃ first rest, digits = first :: rest ∧ first ≠ '0') →
        0 < numberOf digits ∧ Nat.toDigits 10 (numberOf digits) = digits := by
    intro digits
    induction digits using List.reverseRecOn with
    | nil => rintro - ⟨first, rest, impossible, -⟩; cases impossible
    | append_singleton front last induction =>
        intro all nonzero
        have lastDigit := all last (by simp)
        have small : last.toNat - '0'.toNat < 10 := by
          have range : 48 ≤ last.toNat ∧ last.toNat ≤ 57 := by
            simpa [Char.isDigit, UInt32.le_iff_toNat_le] using lastDigit
          have zero : '0'.toNat = 48 := rfl
          omega
        rw [numberOf_concat]
        cases front with
        | nil =>
            obtain ⟨first, rest, same, different⟩ := nonzero
            obtain ⟨rfl, -⟩ := List.cons.inj same
            have digit := digitChar_digit lastDigit
            have value : numberOf [] * 10 + (last.toNat - '0'.toNat) = last.toNat - '0'.toNat := by
              simp [numberOf]
            rw [value, Nat.toDigits_of_lt_base small, digit]
            refine ⟨Nat.pos_of_ne_zero fun zero => different ?_, rfl⟩
            rw [← digit, zero]
            rfl
        | cons first rest =>
            obtain ⟨positive, digits⟩ := induction
              (fun char member => all char (List.mem_append_left _ member)) (by
                obtain ⟨leading, others, same, different⟩ := nonzero
                exact ⟨first, rest, rfl, (List.cons.inj same).1 ▸ different⟩)
            refine ⟨by omega, ?_⟩
            rw [Nat.toDigits_of_base_le (by decide) (by omega)]
            have quotient : (numberOf (first :: rest) * 10 + (last.toNat - '0'.toNat)) / 10 =
                numberOf (first :: rest) := by omega
            have remainder : (numberOf (first :: rest) * 10 + (last.toNat - '0'.toNat)) % 10 =
                last.toNat - '0'.toNat := by omega
            rw [quotient, remainder, digits, digitChar_digit lastDigit]
  simp only [isV4Octet, Bool.or_eq_true, Bool.and_eq_true, decide_eq_true_eq, List.all_eq_true]
    at valid
  rcases valid with rfl | ⟨⟨leading, -⟩, digits⟩
  · decide
  · cases octet with
    | nil => cases leading
    | cons first rest =>
        refine (numeral _ digits ⟨first, rest, rfl, ?_⟩).2
        simp only [List.head?_cons, Option.any_some, Bool.and_eq_true, decide_eq_true_eq] at leading
        exact leading.2

theorem v4Pieces_injective {left right : List Char} (leftValid : isIPv4 left = true)
    (rightValid : isIPv4 right = true) (same : v4Pieces left = v4Pieces right) :
    left = right := by
  obtain ⟨first, second, third, fourth, leftParts, leftOctets⟩ := isIPv4_octets leftValid
  obtain ⟨first', second', third', fourth', rightParts, rightOctets⟩ := isIPv4_octets rightValid
  have equal {octet octet' : List Char} (valid : isV4Octet octet = true ∧ numberOf octet ≤ 255)
      (valid' : isV4Octet octet' = true ∧ numberOf octet' ≤ 255)
      (numbers : numberOf octet = numberOf octet') : octet = octet' := by
    rw [← toDigits_numberOf valid.1, numbers, toDigits_numberOf valid'.1]
  simp only [v4Pieces, leftParts, rightParts, List.map_cons, List.map_nil, List.cons.injEq,
    and_true] at same
  simp only [List.forall_mem_cons, List.not_mem_nil, false_implies, implies_true, and_true]
    at leftOctets rightOctets
  obtain ⟨high, low⟩ := same
  obtain ⟨one, two, three, four⟩ := leftOctets
  obtain ⟨one', two', three', four'⟩ := rightOctets
  have parts : left.splitOn '.' = right.splitOn '.' := by
    rw [leftParts, rightParts, equal one one' (by omega), equal two two' (by omega),
      equal three three' (by omega), equal four four' (by omega)]
  have joined (text : List Char) : ['.'].intercalate (text.splitOn '.') = text :=
    List.intercalate_splitOn '.'
  rw [← joined left, parts, joined]

/-! ## The two forms of a result -/

def bindForm (input : String) : Option (Family × String) :=
  let candidate := ((v4Mapped input.toList).map String.ofList).getD input
  if input.toList = [] then none
  else
    match ipVersion candidate with
    | some .v4 => some (.v4, candidate)
    | some .v6 => (canonicalIPv6 candidate).map fun canonical => (.v6, canonical)
    | none => none

variable {localeCompare : String → String → Ordering}

theorem BindAddress.ext_of {left right : BindAddress} (family : left.family = right.family)
    (addr : left.addr = right.addr) : left = right := by
  obtain ⟨leftFamily, leftAddr, leftWildcard, leftCanonical, leftShaped⟩ := left
  obtain ⟨rightFamily, rightAddr, rightWildcard, rightCanonical, rightShaped⟩ := right
  cases family
  cases addr
  cases leftCanonical
  cases rightCanonical
  rfl

theorem normalizeBind_iff {input : String} {result : BindAddress} :
    normalizeBind (urlPlatform localeCompare) input = .ok result ↔
      bindForm input = some (result.family, result.addr) := by
  unfold normalizeBind bindForm
  by_cases empty : input.toList = []
  · simp [empty]
  · rw [if_neg empty, if_neg empty]
    dsimp only
    split
    · rename_i version
      simp only [version, Except.ok.injEq, Option.some.injEq, Prod.mk.injEq]
      constructor
      · rintro rfl
        exact ⟨rfl, rfl⟩
      · rintro ⟨family, addr⟩
        exact BindAddress.ext_of family addr
    · rename_i version
      simp only [version, urlPlatform]
      cases canonicalIPv6 (((v4Mapped input.toList).map String.ofList).getD input) with
      | none => simp
      | some canonical =>
          simp only [Except.ok.injEq, Option.map_some, Option.some.injEq, Prod.mk.injEq]
          constructor
          · rintro rfl
            exact ⟨rfl, rfl⟩
          · rintro ⟨family, addr⟩
            exact BindAddress.ext_of family addr
    · rename_i version
      simp [version]

/-! ## The texts of both families -/

variable {input : List Char}

theorem isIPv4_separators (valid : isIPv4 input = true) :
    ':' ∉ input ∧ '%' ∉ input ∧ '.' ∈ input := by
  refine ⟨fun member => ?_, fun member => ?_, ?_⟩
  · exact absurd (isIPv4_chars valid member) (by decide)
  · exact absurd (isIPv4_chars valid member) (by decide)
  · obtain ⟨first, second, third, fourth, parts, -⟩ := isIPv4_octets valid
    by_contra absent
    rw [List.splitOn_eq_singleton absent] at parts
    cases parts

theorem looksLikeIpv4_separators (shaped : Route.looksLikeIpv4 input = true) :
    ':' ∉ input ∧ '%' ∉ input ∧ '.' ∈ input := by
  simp only [Route.looksLikeIpv4, Bool.and_eq_true, decide_eq_true_eq, List.all_eq_true] at shaped
  obtain ⟨four, digits⟩ := shaped
  have only {char : Char} (member : char ∈ input) (notDot : char ≠ '.') :
      '0' ≤ char ∧ char ≤ '9' := by
    rcases Route.mem_label member with dot | ⟨label, isLabel, inside⟩
    · exact absurd dot notDot
    · exact (digits label isLabel).2 char inside
  refine ⟨fun member => ?_, fun member => ?_, ?_⟩
  · exact absurd (only member (by decide)) (by decide)
  · exact absurd (only member (by decide)) (by decide)
  · by_contra absent
    rw [Route.labelsOf, List.splitOn_eq_singleton absent] at four
    cases four

theorem isIPv6_noColon (noColon : ':' ∉ input) (noZone : '%' ∉ input) :
    isIPv6 input = false := by
  have plain : doubleColons input 0 = [] := by
    simpa [doubleColons] using doubleColons_skip noColon [] 0
  simp only [isIPv6, withoutZone, if_neg noZone, plain, List.splitOn_eq_singleton noColon]
  simp [groupsFit]

theorem parseIPv6_isIPv4 (valid : isIPv4 input = true) :
    parseIPv6 input = none := by
  obtain ⟨noColon, noZone, -⟩ := isIPv4_separators valid
  simp [parseIPv6, isIPv6_noColon noColon noZone]

theorem toLower_cases {lower : Char} (small : char.toLower = lower) :
    char = lower ∨ (65 ≤ char.toNat ∧ char.toNat ≤ 90 ∧ lower.toNat = char.toNat + 32) := by
  unfold Char.toLower at small
  split at small
  · rename_i upper
    have range : 65 ≤ char.toNat ∧ char.toNat ≤ 90 := by
      simpa [UInt32.le_iff_toNat_le] using upper
    refine .inr ⟨range.1, range.2, ?_⟩
    rw [← small]
    change (char.val.toNat + 32) % 2 ^ 32 = char.val.toNat + 32
    have bound : char.val.toNat ≤ 90 := range.2
    omega
  · exact .inl small

theorem toLower_colon (colon : char.toLower = ':') : char = ':' := by
  rcases toLower_cases colon with same | ⟨low, -, code⟩
  · exact same
  · have number : ':'.toNat = 58 := rfl
    omega

theorem toLower_f (letter : char.toLower = 'f') : char = 'f' ∨ char = 'F' := by
  rcases toLower_cases letter with same | ⟨-, -, code⟩
  · exact .inl same
  · have number : 'f'.toNat = 102 := rfl
    have capital : char.toNat = 70 := by omega
    right
    rw [← Char.ofNat_toNat char, capital]

variable {dotted : List Char}

theorem v4Mapped_some (mapped : v4Mapped input = some dotted) :
    Route.looksLikeIpv4 dotted = true ∧ ∃ first second third fourth,
      (∀ letter ∈ [first, second, third, fourth], letter = 'f' ∨ letter = 'F') ∧
        input = ':' :: ':' :: [first, second, third, fourth] ++ ':' :: dotted := by
  simp only [v4Mapped] at mapped
  split at mapped
  · rename_i accepted
    obtain ⟨front, shaped⟩ := accepted
    cases mapped
    have whole := List.take_append_drop 7 input
    have text : "::ffff:".toList = [':', ':', 'f', 'f', 'f', 'f', ':'] := rfl
    rw [text] at front
    generalize input.take 7 = head at front whole
    have seven : head.length = 7 := by simpa using congrArg List.length front
    match head, seven, front with
    | [c₁, c₂, c₃, c₄, c₅, c₆, c₇], _, front =>
        simp only [List.map_cons, List.map_nil, List.cons.injEq, and_true] at front
        obtain ⟨colon₁, colon₂, f₁, f₂, f₃, f₄, colon₃⟩ := front
        refine ⟨shaped, c₃, c₄, c₅, c₆, ?_, ?_⟩
        · simp only [List.forall_mem_cons, List.not_mem_nil, false_implies, implies_true, and_true]
          exact ⟨toLower_f f₁, toLower_f f₂, toLower_f f₃, toLower_f f₄⟩
        · rw [← whole, toLower_colon colon₁, toLower_colon colon₂, toLower_colon colon₃]
          rfl
  · cases mapped

theorem v4Mapped_isIPv4 (valid : isIPv4 input = true) :
    v4Mapped input = none := by
  cases mapped : v4Mapped input with
  | none => rfl
  | some dotted =>
      obtain ⟨-, first, second, third, fourth, -, rfl⟩ := v4Mapped_some mapped
      exact absurd (by simp) (isIPv4_separators valid).1

theorem parseIPv6_mapped (mapped : v4Mapped input = some dotted)
    (valid : isIPv4 dotted = true) :
    parseIPv6 input = some ([0, 0, 0, 0, 0, 65535] ++ v4Pieces dotted) := by
  obtain ⟨-, first, second, third, fourth, letters, rfl⟩ := v4Mapped_some mapped
  obtain ⟨noColon, noZone, dot⟩ := isIPv4_separators valid
  have hextet : isHextet [first, second, third, fourth] = true ∧
      hextetValue [first, second, third, fourth] = 65535 := by
    simp only [List.forall_mem_cons] at letters
    obtain ⟨one, two, three, four, -⟩ := letters
    rcases one with rfl | rfl <;> rcases two with rfl | rfl <;> rcases three with rfl | rfl <;>
      rcases four with rfl | rfl <;> decide
  have groups : Groups [[first, second, third, fourth], dotted] := by
    intro group member
    rcases List.mem_pair.mp member with rfl | rfl
    · exact ⟨by simp, (notMem_hextet hextet.1).1⟩
    · exact ⟨List.ne_nil_of_mem dot, noColon⟩
  have joined : [':'].intercalate [[first, second, third, fourth], dotted] =
      [first, second, third, fourth] ++ ':' :: dotted := by
    simp [List.intercalate_cons_cons]
  have doubled : doubleColons (':' :: ':' :: ([first, second, third, fourth] ++ ':' :: dotted)) 0 =
      [0] := by
    have alone : Groups [] := nofun
    rw [← joined]
    exact doubleColons_shortened alone groups
  have behind : colonGroups ([first, second, third, fourth] ++ ':' :: dotted) =
      [[first, second, third, fourth], dotted] := by
    rw [← joined, colonGroups_joined groups]
  have undotted : '.' ∉ [first, second, third, fourth] := (notMem_hextet hextet.1).2.1
  have zoneless : '%' ∉ ':' :: ':' :: ([first, second, third, fourth] ++ ':' :: dotted) := by
    simp only [List.mem_cons, List.mem_append, not_or]
    have letters := (notMem_hextet hextet.1).2.2
    simp only [List.mem_cons, not_or] at letters
    exact ⟨by decide, by decide, letters, by decide, noZone⟩
  have fits : groupsFit true [] [[first, second, third, fourth], dotted] = true := by
    simp [groupsFit, dot, valid, hextet.1]
  have noColonBehind : ([first, second, third, fourth] ++ ':' :: dotted).head? ≠ some ':' := by
    rw [← joined]
    simpa using head?_joined groups []
  have shaped : isIPv6 (':' :: ':' :: ([first, second, third, fourth] ++ ':' :: dotted)) = true := by
    simp only [isIPv6, withoutZone, if_neg zoneless, doubled, List.take_zero, List.drop_succ_cons,
      List.drop_zero, noColonBehind, List.getLast?_nil, reduceCtorEq, decide_false, Bool.or_self,
      Bool.false_eq_true, if_false]
    change groupsFit true [] (colonGroups ([first, second, third, fourth] ++ ':' :: dotted)) = true
    rw [behind]
    exact fits
  obtain ⟨high, low, numbers, -, -⟩ := v4Pieces_small valid
  have pieces : sidePieces [[first, second, third, fourth], dotted] = [65535, high, low] := by
    simp [sidePieces, groupPieces, undotted, hextet.2, dot, numbers]
  change parseIPv6 (':' :: ':' :: ([first, second, third, fourth] ++ ':' :: dotted)) = _
  rw [parseIPv6, if_pos ⟨zoneless, shaped⟩, piecesOf, doubled]
  simp only [List.take_zero, List.drop_succ_cons, List.drop_zero, behind, pieces, numbers]
  rfl

/-! ## What is accepted -/

/-- The two ways to a result: an IPv4 address, written so or folded, and the
canonical text of an IPv6 address. -/
inductive FormOf (input : String) : Family → String → Prop where
  | folded (dotted : List Char) (valid : isIPv4 dotted = true)
      (names : addressOf input = some (.v4 (v4Pieces dotted))) (folds : ¬Unfolded input) :
      FormOf input .v4 (String.ofList dotted)
  | kept (pieces : List Nat) (unmapped : v4Mapped input.toList = none)
      (undotted : isIPv4 input.toList = false)
      (parsed : parseIPv6 input.toList = some pieces) :
      FormOf input .v6 (String.ofList (serializeIPv6 pieces))

variable {family : Family} {text : String}

theorem formOf_bindForm {input : String}
    (accepted : bindForm input = some (family, text)) : FormOf input family text := by
  simp only [bindForm] at accepted
  split at accepted
  · cases accepted
  · cases mapped : v4Mapped input.toList with
    | some dotted =>
        rw [mapped, Option.map_some, Option.getD_some] at accepted
        by_cases valid : isIPv4 dotted = true
        · simp only [ipVersion, String.toList_ofList, if_pos valid, Option.some.injEq,
            Prod.mk.injEq] at accepted
          obtain ⟨rfl, rfl⟩ := accepted
          refine .folded dotted valid ?_ ?_
          · have colon : isIPv4 input.toList = false := by
              by_contra dottedWhole
              rw [Bool.not_eq_false] at dottedWhole
              rw [v4Mapped_isIPv4 dottedWhole] at mapped
              cases mapped
            obtain ⟨high, low, numbers, -, -⟩ := v4Pieces_small valid
            simp [addressOf, colon, parseIPv6_mapped mapped valid, numbers, embedsV4]
          · rintro ⟨unmapped, -⟩
            rw [mapped] at unmapped
            cases unmapped
        · obtain ⟨noColon, noZone, -⟩ := looksLikeIpv4_separators (v4Mapped_some mapped).1
          simp [ipVersion, valid, isIPv6_noColon noColon noZone] at accepted
    | none =>
        rw [mapped, Option.map_none, Option.getD_none] at accepted
        by_cases valid : isIPv4 input.toList = true
        · simp only [ipVersion, if_pos valid, Option.some.injEq, Prod.mk.injEq] at accepted
          obtain ⟨rfl, rfl⟩ := accepted
          have folds : ¬Unfolded input := by
            rintro ⟨-, pieces, parsed, -⟩
            rw [parseIPv6_isIPv4 valid] at parsed
            cases parsed
          have names : addressOf input = some (.v4 (v4Pieces input.toList)) := by
            simp [addressOf, valid]
          have form : FormOf input .v4 (String.ofList input.toList) :=
            .folded input.toList valid names folds
          rwa [String.ofList_toList] at form
        · by_cases shaped : isIPv6 input.toList = true
          · simp only [ipVersion, if_neg valid, if_pos shaped, canonicalIPv6, Option.map_map]
              at accepted
            obtain ⟨pieces, parsed, same⟩ := Option.map_eq_some_iff.mp accepted
            obtain ⟨rfl, rfl⟩ := Prod.mk.inj same
            exact .kept pieces mapped (Bool.eq_false_iff.mpr valid) parsed
          · simp only [ipVersion, if_neg valid, if_neg shaped] at accepted
            cases accepted

/-! ## Results are read back -/

variable {pieces : List Nat}

theorem notMem_serialize (small : ∀ piece ∈ pieces, piece < 65536) :
    '.' ∉ serializeIPv6 pieces := by
  have joined {part : List Nat} (inside : ∀ piece ∈ part, piece ∈ pieces) : '.' ∉ hexJoin part :=
    (hextets_digitGroups fun piece listed => small piece (inside piece listed)).notMem_joined.1
  unfold serializeIPv6
  split
  · exact joined fun _ listed => listed
  · rename_i start length found
    simp only [List.mem_append, List.mem_cons, not_or]
    exact ⟨joined fun _ => List.mem_of_mem_take, by decide, by decide,
      joined fun _ => List.mem_of_mem_drop⟩

theorem bindForm_v4 (valid : isIPv4 dotted = true) :
    bindForm (String.ofList dotted) = some (.v4, String.ofList dotted) := by
  have filled : dotted ≠ [] := List.ne_nil_of_mem (isIPv4_separators valid).2.2
  simp [bindForm, v4Mapped_isIPv4 valid, ipVersion, valid, filled]

theorem bindForm_v6 (eight : EightPieces pieces) :
    bindForm (String.ofList (serializeIPv6 pieces)) =
      some (.v6, String.ofList (serializeIPv6 pieces)) := by
  have undotted := notMem_serialize eight.2
  have parsed := parse_serialize eight
  have shaped : isIPv6 (serializeIPv6 pieces) = true := by
    rw [parseIPv6] at parsed
    split at parsed
    · rename_i accepted
      exact accepted.2
    · cases parsed
  have notV4 : isIPv4 (serializeIPv6 pieces) = false := by
    by_contra valid
    exact undotted (isIPv4_separators (Bool.not_eq_false _ ▸ valid)).2.2
  have unmapped : v4Mapped (serializeIPv6 pieces) = none := by
    cases mapped : v4Mapped (serializeIPv6 pieces) with
    | none => rfl
    | some dotted =>
        obtain ⟨looks, _, _, _, _, -, whole⟩ := v4Mapped_some mapped
        have dot := (looksLikeIpv4_separators looks).2.2
        exact absurd (whole ▸ by simp [dot]) undotted
  have filled : serializeIPv6 pieces ≠ [] := by
    intro empty
    rw [empty] at shaped
    cases shaped
  simp [bindForm, unmapped, ipVersion, notV4, shaped, filled, canonicalIPv6, parsed]

/-! ## Spellings of one address -/

variable (localeCompare) in
/-- What a canonical form of the binds of two accepted texts should satisfy. -/
structure CanonicalOn (left right : String) (x y : BindAddress) : Prop where
  same : addressOf left = addressOf right → x = y ∧
    ∀ key protocol port other,
      socketsOverlap (urlPlatform localeCompare) ⟨key, protocol, left, port⟩ other =
        socketsOverlap (urlPlatform localeCompare) ⟨key, protocol, right, port⟩ other
  apart : addressOf left ≠ addressOf right → x ≠ y
  idempotent : normalizeBind (urlPlatform localeCompare) x.addr = .ok x ∧
    normalizeBind (urlPlatform localeCompare) y.addr = .ok y
  symmetric : ∀ one other, socketsOverlap (urlPlatform localeCompare) one other =
    socketsOverlap (urlPlatform localeCompare) other one

theorem FormOf.again {input : String}
    (form : FormOf input family text) : bindForm text = some (family, text) := by
  cases form with
  | folded dotted valid => exact bindForm_v4 valid
  | kept pieces unmapped undotted parsed => exact bindForm_v6 (eightPieces_of_parse parsed)

theorem addressOf_kept {input : String}
    (undotted : isIPv4 input.toList = false) (parsed : parseIPv6 input.toList = some pieces) :
    addressOf input = some (if embedsV4 pieces then .v4 (pieces.drop 6) else .v6 pieces) := by
  simp [addressOf, undotted, parsed]

theorem unfolded_kept {input : String} (unmapped : v4Mapped input.toList = none)
    (parsed : parseIPv6 input.toList = some pieces) :
    Unfolded input ↔ embedsV4 pieces = true := by
  simp [Unfolded, unmapped, parsed]

theorem addressOf_eq_of_form {left right : String} {family' : Family} {text' : String}
    (leftForm : FormOf left family text) (rightForm : FormOf right family' text')
    (same : (family, text) = (family', text')) : addressOf left = addressOf right := by
  cases leftForm with
  | folded dotted valid names folds =>
      cases rightForm with
      | folded dotted' valid' names' folds' =>
          obtain rfl := String.ofList_injective (Prod.mk.inj same).2
          rw [names, names']
      | kept => cases (Prod.mk.inj same).1
  | kept pieces unmapped undotted parsed =>
      cases rightForm with
      | folded => cases (Prod.mk.inj same).1
      | kept pieces' unmapped' undotted' parsed' =>
          have texts := String.ofList_injective (Prod.mk.inj same).2
          have numbers := (parse_serialize (eightPieces_of_parse parsed)).symm.trans
            (texts ▸ parse_serialize (eightPieces_of_parse parsed'))
          cases numbers
          rw [addressOf_kept undotted parsed, addressOf_kept undotted' parsed']

theorem form_eq_iff {left right : String} {family' : Family} {text' : String}
    (leftForm : FormOf left family text) (rightForm : FormOf right family' text')
    (same : addressOf left = addressOf right) :
    (family, text) = (family', text') ↔ (Unfolded left ↔ Unfolded right) := by
  cases leftForm with
  | folded dotted valid names folds =>
      cases rightForm with
      | folded dotted' valid' names' folds' =>
          rw [names, names', Option.some.injEq, Address.v4.injEq] at same
          simp [v4Pieces_injective valid valid' same, folds, folds']
      | kept pieces' unmapped' undotted' parsed' =>
          rw [names, addressOf_kept undotted' parsed', Option.some.injEq] at same
          have embeds : embedsV4 pieces' = true := by
            by_contra distinct
            rw [if_neg distinct] at same
            cases same
          simp [folds, unfolded_kept unmapped' parsed', embeds]
  | kept pieces unmapped undotted parsed =>
      cases rightForm with
      | folded dotted' valid' names' folds' =>
          rw [names', addressOf_kept undotted parsed, Option.some.injEq] at same
          have embeds : embedsV4 pieces = true := by
            by_contra distinct
            rw [if_neg distinct] at same
            cases same
          simp [folds', unfolded_kept unmapped parsed, embeds]
      | kept pieces' unmapped' undotted' parsed' =>
          rw [addressOf_kept undotted parsed, addressOf_kept undotted' parsed',
            Option.some.injEq] at same
          rw [unfolded_kept unmapped parsed, unfolded_kept unmapped' parsed']
          by_cases embeds : embedsV4 pieces = true <;> by_cases embeds' : embedsV4 pieces' = true
          · rw [if_pos embeds, if_pos embeds', Address.v4.injEq] at same
            have front : pieces.take 6 = pieces'.take 6 := by
              simp only [embedsV4, decide_eq_true_eq] at embeds embeds'
              rw [embeds, embeds']
            have numbers : pieces = pieces' := by
              rw [← List.take_append_drop 6 pieces, front, same, List.take_append_drop]
            simp [numbers]
          · rw [if_pos embeds, if_neg embeds'] at same
            cases same
          · rw [if_neg embeds, if_pos embeds'] at same
            cases same
          · rw [if_neg embeds, if_neg embeds', Address.v6.injEq] at same
            simp [same]

/-- The binds are canonical for a pair of texts unless just one of them is an
embedded address that is not folded. -/
theorem normalizeBind_canonical {left right : String} {x y : BindAddress}
    (leftReads : normalizeBind (urlPlatform localeCompare) left = .ok x)
    (rightReads : normalizeBind (urlPlatform localeCompare) right = .ok y) :
    CanonicalOn localeCompare left right x y ↔
      (addressOf left = addressOf right → (Unfolded left ↔ Unfolded right)) := by
  have leftForm := formOf_bindForm (normalizeBind_iff.mp leftReads)
  have rightForm := formOf_bindForm (normalizeBind_iff.mp rightReads)
  have results : x = y ↔ (x.family, x.addr) = (y.family, y.addr) := by
    refine ⟨fun same => same ▸ rfl, fun same => ?_⟩
    exact BindAddress.ext_of (Prod.mk.inj same).1 (Prod.mk.inj same).2
  constructor
  · intro canonical same
    exact (form_eq_iff leftForm rightForm same).mp (results.mp (canonical.same same).1)
  · intro folded
    refine ⟨fun same => ?_, fun different same => different ?_, ⟨?_, ?_⟩, socketsOverlap_symm⟩
    · have equal := results.mpr ((form_eq_iff leftForm rightForm same).mpr (folded same))
      refine ⟨equal, fun key protocol port other => ?_⟩
      rw [← equal] at rightReads
      simp only [socketsOverlap, leftReads, rightReads]
    · exact addressOf_eq_of_form leftForm rightForm (results.mp same)
    · exact normalizeBind_iff.mpr leftForm.again
    · exact normalizeBind_iff.mpr rightForm.again

/-- The address `1.2.3.4`. -/
def oneTwoThreeFour : BindAddress where
  family := .v4
  addr := "1.2.3.4"
  wildcard := false
  canonical := by decide
  shaped := by decide +kernel

theorem normalizeBind_canonical_capitals :
    CanonicalOn plainPlatform.localeCompare "::FFFF:1.2.3.4" "1.2.3.4"
      oneTwoThreeFour oneTwoThreeFour :=
  (normalizeBind_canonical (normalizeBind_iff.mpr (by decide +kernel))
    (normalizeBind_iff.mpr (by decide +kernel))).mpr fun _ =>
      ⟨fun ⟨unmapped, _⟩ => absurd unmapped (by decide +kernel), fun ⟨_, pieces, parsed, _⟩ => by
        rw [parseIPv6_isIPv4 (by decide +kernel)] at parsed
        cases parsed⟩

def hexadecimalForm : BindAddress where
  family := .v6
  addr := "::ffff:102:304"
  wildcard := false
  canonical := by decide
  shaped := nofun

theorem hexadecimal_form_not_folded :
    normalizeBind (urlPlatform plainPlatform.localeCompare) "::ffff:1.2.3.4" =
        .ok oneTwoThreeFour ∧
      normalizeBind (urlPlatform plainPlatform.localeCompare) "::ffff:102:304" =
        .ok hexadecimalForm ∧
      addressOf "::ffff:1.2.3.4" = addressOf "::ffff:102:304" ∧
      ¬CanonicalOn plainPlatform.localeCompare "::ffff:1.2.3.4" "::ffff:102:304"
        oneTwoThreeFour hexadecimalForm := by
  have same : addressOf "::ffff:1.2.3.4" = addressOf "::ffff:102:304" := by decide +kernel
  refine ⟨normalizeBind_iff.mpr (by decide +kernel), normalizeBind_iff.mpr (by decide +kernel),
    same, fun canonical => ?_⟩
  have families := congrArg BindAddress.family (canonical.same same).1
  cases families

end Validate

end Barycenter
