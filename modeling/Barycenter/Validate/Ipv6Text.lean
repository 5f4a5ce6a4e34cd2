import Barycenter.Foundation.Scanning
import Barycenter.Validate.Ip
import Mathlib.Data.List.Induction
import Mathlib.Tactic.IntervalCases

/-!
# The numbers of an IPv6 address and its canonical text

The URL parser reads an IPv6 host as eight numbers of sixteen bits and writes
them back without leading zeros, in lower case, with the first longest run of
zeros shortened, and with no dotted part.  It takes the texts that `isIPv6`
takes, except for those with a zone.
-/

namespace Barycenter

namespace Validate

/-! ## Reading -/

def hexDigitValue (char : Char) : Nat :=
  if char.isDigit then char.toNat - '0'.toNat
  else if 'a' ≤ char then char.toNat - 'a'.toNat + 10
  else char.toNat - 'A'.toNat + 10

def hextetValue (group : List Char) : Nat :=
  group.foldl (fun number char => number * 16 + hexDigitValue char) 0

def v4Pieces (dotted : List Char) : List Nat :=
  match (dotted.splitOn '.').map numberOf with
  | [first, second, third, fourth] => [first * 256 + second, third * 256 + fourth]
  | _ => []

def groupPieces (group : List Char) : List Nat :=
  if '.' ∈ group then v4Pieces group else [hextetValue group]

def colonGroups (side : List Char) : List (List Char) :=
  if side = [] then [] else side.splitOn ':'

def sidePieces (groups : List (List Char)) : List Nat := groups.flatMap groupPieces

/-- Zeros in the place of `::`. -/
def expand (head tail : List Nat) : List Nat :=
  head ++ List.replicate (8 - head.length - tail.length) 0 ++ tail

def piecesOf (addr : List Char) : List Nat :=
  match doubleColons addr 0 with
  | [] => sidePieces (addr.splitOn ':')
  | start :: _ =>
      expand (sidePieces (colonGroups (addr.take start)))
        (sidePieces (colonGroups (addr.drop (start + 2))))

def parseIPv6 (addr : List Char) : Option (List Nat) :=
  if '%' ∉ addr ∧ isIPv6 addr = true then some (piecesOf addr) else none

/-! ## Writing -/

def zeroRun (pieces : List Nat) : Nat := (pieces.takeWhile (· = 0)).length

/-- Where the first longest run of at least two zeros starts, and its length. -/
def compressed (pieces : List Nat) : Option (Nat × Nat) :=
  let runs := (List.range pieces.length).map fun start => (start, zeroRun (pieces.drop start))
  let longest := runs.foldl (fun best run => if best.2 < run.2 then run else best) (0, 0)
  if 2 ≤ longest.2 then some longest else none

def hexJoin (pieces : List Nat) : List Char :=
  [':'].intercalate (pieces.map (Nat.toDigits 16))

def serializeIPv6 (pieces : List Nat) : List Char :=
  match compressed pieces with
  | none => hexJoin pieces
  | some (start, length) =>
      hexJoin (pieces.take start) ++ ':' :: ':' :: hexJoin (pieces.drop (start + length))

/-- The host of a URL with this IPv6 host, without its brackets. -/
def canonicalIPv6 (host : String) : Option String :=
  (parseIPv6 host.toList).map fun pieces => String.ofList (serializeIPv6 pieces)

example : ["1:0:0:2:0:0:0:3", "::FFFF:1.2.3.4", "0:0:0:0:0:0:0:0", "1:2:3:4:5:6:7::",
    "2001:0db8:0:1:1:1:1:1", "fe80::1%eth0"].map canonicalIPv6 =
    [some "1:0:0:2::3", some "::ffff:102:304", some "::", some "1:2:3:4:5:6:7:0",
      some "2001:db8:0:1:1:1:1:1", none] := by
  decide +kernel

/-! ## Groups of hexadecimal digits -/

theorem digitChar_hex {digit : Nat} (small : digit < 16) :
    isHextet [digit.digitChar] = true ∧ hexDigitValue digit.digitChar = digit := by
  interval_cases digit <;> decide

theorem toDigits_hex (number : Nat) :
    (∀ char ∈ Nat.toDigits 16 number, isHextet [char] = true) ∧
      hextetValue (Nat.toDigits 16 number) = number := by
  induction number using Nat.strongRecOn with
  | ind number induction =>
      by_cases small : number < 16
      · rw [Nat.toDigits_of_lt_base small]
        obtain ⟨shaped, value⟩ := digitChar_hex small
        exact ⟨by simpa using shaped, by simpa [hextetValue] using value⟩
      · obtain ⟨shaped, value⟩ := induction (number / 16) (by omega)
        obtain ⟨lastShaped, lastValue⟩ := digitChar_hex (Nat.mod_lt number (by decide : 0 < 16))
        rw [Nat.toDigits_of_base_le (by decide) (Nat.not_lt.mp small)]
        refine ⟨fun char member => ?_, ?_⟩
        · rcases List.mem_append.mp member with front | last
          · exact shaped char front
          · rw [List.mem_singleton.mp last]
            exact lastShaped
        · rw [hextetValue, List.foldl_append, ← hextetValue, value]
          simp only [List.foldl_cons, List.foldl_nil, lastValue]
          omega

variable {group : List Char}

theorem isHextet_iff :
    isHextet group = true ↔
      1 ≤ group.length ∧ group.length ≤ 4 ∧ ∀ char ∈ group, isHextet [char] = true := by
  simp [isHextet, and_assoc]

theorem isHextet_toDigits {number : Nat} (small : number < 65536) :
    isHextet (Nat.toDigits 16 number) = true :=
  isHextet_iff.mpr ⟨List.length_pos_iff.mpr Nat.toDigits_ne_nil,
    (Nat.length_toDigits_le_iff (by decide) (by decide)).mpr small, (toDigits_hex number).1⟩

theorem hexDigitValue_lt {char : Char} (shaped : isHextet [char] = true) :
    hexDigitValue char < 16 := by
  have ranges : (48 ≤ char.toNat ∧ char.toNat ≤ 57) ∨ (97 ≤ char.toNat ∧ char.toNat ≤ 102) ∨
      (65 ≤ char.toNat ∧ char.toNat ≤ 70) := by
    simpa [isHextet, Char.isDigit, Char.le_def, UInt32.le_iff_toNat_le, or_assoc] using shaped
  simp only [hexDigitValue, Char.isDigit, Char.le_def, UInt32.le_iff_toNat_le, Bool.and_eq_true,
    decide_eq_true_eq, Char.reduceToNat]
  simp only [Char.toNat] at ranges ⊢
  split <;> [skip; split] <;> simp_all <;> omega

theorem notMem_hextet (shaped : isHextet group = true) :
    ':' ∉ group ∧ '.' ∉ group ∧ '%' ∉ group := by
  have chars := (isHextet_iff.mp shaped).2.2
  refine ⟨fun member => ?_, fun member => ?_, fun member => ?_⟩ <;>
    exact absurd (chars _ member) (by decide)

theorem hextetValue_lt (shaped : ∀ char ∈ group, isHextet [char] = true) :
    hextetValue group < 16 ^ group.length := by
  induction group using List.reverseRecOn with
  | nil => decide
  | append_singleton front last induction =>
      have front := induction fun char member => shaped char (List.mem_append_left _ member)
      have last := hexDigitValue_lt (shaped last (by simp))
      rw [hextetValue, List.foldl_append, ← hextetValue, List.length_append]
      simp only [List.foldl_cons, List.foldl_nil, List.length_cons, List.length_nil, pow_add]
      omega

/-! ## Joined groups -/

theorem doubleColons_skip (free : ':' ∉ group) (rest : List Char)
    (position : Nat) :
    doubleColons (group ++ rest) position = doubleColons rest (position + group.length) := by
  induction group generalizing position with
  | nil => rfl
  | cons first others induction =>
      have different : first ≠ ':' := fun same => free (same ▸ List.mem_cons_self)
      have onward := induction (fun member => free (List.mem_cons_of_mem _ member)) (position + 1)
      rw [List.cons_append, doubleColons, onward, List.length_cons]
      · congr 1
        omega
      · rintro rest' rfl
        exact absurd rfl different

theorem doubleColons_single {rest : List Char} (alone : rest.head? ≠ some ':')
    (position : Nat) : doubleColons (':' :: rest) position = doubleColons rest (position + 1) := by
  cases rest with
  | nil => rfl
  | cons first others =>
      have different : first ≠ ':' := by simpa using alone
      rw [doubleColons]
      rintro rest' - same
      exact absurd (List.cons.inj same).1 different

def Groups (groups : List (List Char)) : Prop :=
  ∀ group ∈ groups, group ≠ [] ∧ ':' ∉ group

theorem Groups.tail {rest : List (List Char)}
    (groups : Groups (group :: rest)) : Groups rest :=
  fun other member => groups other (List.mem_cons_of_mem _ member)

theorem head?_joined {others : List (List Char)}
    (shaped : Groups (group :: others)) (rest : List Char) :
    ([':'].intercalate (group :: others) ++ rest).head? ≠ some ':' := by
  obtain ⟨filled, free⟩ := shaped group (by simp)
  obtain ⟨first, more, rfl⟩ := List.exists_cons_of_ne_nil filled
  have different : first ≠ ':' := fun same => free (same ▸ List.mem_cons_self)
  cases others <;> simpa [List.intercalate_cons_cons] using different

theorem getLast?_joined {groups : List (List Char)} (shaped : Groups groups) :
    ([':'].intercalate groups).getLast? ≠ some ':' := by
  induction groups with
  | nil => simp
  | cons group others induction =>
      obtain ⟨filled, free⟩ := shaped group (by simp)
      cases others with
      | nil =>
          intro last
          rw [List.intercalate_singleton] at last
          exact free (List.mem_of_getLast? last)
      | cons second more =>
          have later := induction shaped.tail
          have some : [':'].intercalate (second :: more) ≠ [] := by
            have filled := (shaped.tail second (by simp)).1
            cases more <;> simp [List.intercalate_cons_cons, filled]
          rw [List.intercalate_cons_cons, List.append_assoc, List.getLast?_append_of_ne_nil]
          · rw [List.getLast?_append_of_ne_nil _ some]
            exact later
          · simp

theorem doubleColons_joined {groups : List (List Char)} (shaped : Groups groups)
    (rest : List Char) (position : Nat) :
    doubleColons ([':'].intercalate groups ++ rest) position =
      doubleColons rest (position + ([':'].intercalate groups).length) := by
  induction groups generalizing position with
  | nil => simp
  | cons group others induction =>
      obtain ⟨filled, free⟩ := shaped group (by simp)
      cases others with
      | nil => simpa using doubleColons_skip free rest position
      | cons second more =>
          rw [List.intercalate_cons_cons, List.append_assoc, List.append_assoc,
            doubleColons_skip free, List.singleton_append,
            doubleColons_single (head?_joined shaped.tail rest), induction shaped.tail]
          simp only [List.length_append, List.length_singleton]
          congr 1
          omega

theorem colonGroups_joined {groups : List (List Char)} (shaped : Groups groups) :
    colonGroups ([':'].intercalate groups) = groups := by
  cases groups with
  | nil => rfl
  | cons group others =>
      have some : [':'].intercalate (group :: others) ≠ [] := by
        have filled := (shaped group (by simp)).1
        cases others <;> simp [List.intercalate_cons_cons, filled]
      rw [colonGroups, if_neg some]
      exact List.splitOn_intercalate ':' (fun part member => (shaped part member).2) (by simp)

theorem doubleColons_plain {groups : List (List Char)} (shaped : Groups groups) :
    doubleColons ([':'].intercalate groups) 0 = [] := by
  simpa [doubleColons] using doubleColons_joined shaped [] 0

variable {head tail : List (List Char)}

theorem doubleColons_shortened (headShaped : Groups head)
    (tailShaped : Groups tail) :
    doubleColons ([':'].intercalate head ++ ':' :: ':' :: [':'].intercalate tail) 0 =
      [([':'].intercalate head).length] := by
  have behind (position : Nat) :
      doubleColons (':' :: [':'].intercalate tail) position = [] := by
    have alone : ([':'].intercalate tail).head? ≠ some ':' := by
      cases tail with
      | nil => simp
      | cons group others => simpa using head?_joined tailShaped []
    rw [doubleColons_single alone]
    simpa [doubleColons] using doubleColons_joined tailShaped [] (position + 1)
  rw [doubleColons_joined headShaped, doubleColons, behind, Nat.zero_add]

/-! ## The canonical text is read back -/

def EightPieces (pieces : List Nat) : Prop :=
  pieces.length = 8 ∧ ∀ piece ∈ pieces, piece < 65536

def Hextets (groups : List (List Char)) : Prop := ∀ group ∈ groups, isHextet group = true

theorem Hextets.groups {groups : List (List Char)} (hextets : Hextets groups) :
    Groups groups := by
  intro group member
  have shaped := hextets group member
  exact ⟨List.length_pos_iff.mp (isHextet_iff.mp shaped).1, (notMem_hextet shaped).1⟩

theorem Hextets.notMem_joined {groups : List (List Char)} (hextets : Hextets groups) :
    '.' ∉ [':'].intercalate groups ∧ '%' ∉ [':'].intercalate groups :=
  ⟨Scanning.notMem_intercalate (by decide) fun group member =>
      (notMem_hextet (hextets group member)).2.1,
    Scanning.notMem_intercalate (by decide) fun group member =>
      (notMem_hextet (hextets group member)).2.2⟩

theorem groupsFit_hextets {doubled : Bool} (hextets : Hextets (head ++ tail)) :
    groupsFit doubled head tail =
      if doubled then decide ((head ++ tail).length ≤ 7)
      else decide ((head ++ tail).length = 8) := by
  have all : (head ++ tail).all isHextet = true := List.all_eq_true.mpr hextets
  cases found : (head ++ tail).getLast? with
  | none =>
      simp only [groupsFit, found, all, Bool.true_and]
  | some last =>
      have undotted := (notMem_hextet (hextets last (List.mem_of_getLast? found))).2.1
      simp only [groupsFit, found, if_neg undotted, all, Bool.true_and]

def digitGroups (pieces : List Nat) : List (List Char) := pieces.map (Nat.toDigits 16)

variable {pieces : List Nat}

theorem hextets_digitGroups (small : ∀ piece ∈ pieces, piece < 65536) :
    Hextets (digitGroups pieces) := by
  intro group member
  obtain ⟨piece, listed, rfl⟩ := List.mem_map.mp member
  exact isHextet_toDigits (small piece listed)

theorem sidePieces_digitGroups (small : ∀ piece ∈ pieces, piece < 65536) :
    sidePieces (digitGroups pieces) = pieces := by
  have each : ∀ piece ∈ pieces, groupPieces (Nat.toDigits 16 piece) = [piece] := by
    intro piece listed
    rw [groupPieces, if_neg (notMem_hextet (isHextet_toDigits (small piece listed))).2.1,
      (toDigits_hex piece).2]
  rw [sidePieces, digitGroups, List.flatMap_map, List.flatMap_congr each]
  simp

theorem longest_mem (runs : List (Nat × Nat)) (best : Nat × Nat) :
    runs.foldl (fun best run => if best.2 < run.2 then run else best) best = best ∨
      runs.foldl (fun best run => if best.2 < run.2 then run else best) best ∈ runs := by
  induction runs generalizing best with
  | nil => exact .inl rfl
  | cons run rest induction =>
      rw [List.foldl_cons]
      rcases induction (if best.2 < run.2 then run else best) with same | later
      · rw [same]
        split
        · exact .inr List.mem_cons_self
        · exact .inl rfl
      · exact .inr (List.mem_cons_of_mem _ later)

theorem zeroRun_split (pieces : List Nat) :
    pieces = List.replicate (zeroRun pieces) 0 ++ pieces.drop (zeroRun pieces) := by
  induction pieces with
  | nil => rfl
  | cons piece rest induction =>
      by_cases zero : piece = 0
      · have run : zeroRun (piece :: rest) = zeroRun rest + 1 := by simp [zeroRun, zero]
        rw [run, List.replicate_succ, List.drop_succ_cons, List.cons_append, ← induction, zero]
      · simp [zeroRun, zero]

theorem compressed_some {start length : Nat}
    (found : compressed pieces = some (start, length)) :
    2 ≤ length ∧ start + length ≤ pieces.length ∧
      pieces = pieces.take start ++ List.replicate length 0 ++ pieces.drop (start + length) := by
  simp only [compressed] at found
  split at found
  · rename_i long
    have longest := Option.some.inj found
    rw [longest] at long
    rcases longest_mem _ (0, 0) with first | member
    · have none := (Prod.mk.inj (longest.symm.trans first)).2
      omega
    · rw [longest] at member
      obtain ⟨position, inside, same⟩ := List.mem_map.mp member
      obtain ⟨rfl, rfl⟩ := Prod.mk.inj same
      have bounded : zeroRun (pieces.drop position) ≤ (pieces.drop position).length :=
        (List.takeWhile_prefix _).length_le
      have before := List.mem_range.mp inside
      rw [List.length_drop] at bounded
      refine ⟨long, by omega, ?_⟩
      rw [List.append_assoc, ← List.drop_drop, ← zeroRun_split, List.take_append_drop]
  · cases found

theorem read_shortened {head tail : List Nat} (headSmall : ∀ piece ∈ head, piece < 65536)
    (tailSmall : ∀ piece ∈ tail, piece < 65536) (few : head.length + tail.length ≤ 7) :
    parseIPv6 (hexJoin head ++ ':' :: ':' :: hexJoin tail) = some (expand head tail) := by
  have headHex := hextets_digitGroups headSmall
  have tailHex := hextets_digitGroups tailSmall
  have doubled : doubleColons (hexJoin head ++ ':' :: ':' :: hexJoin tail) 0 =
      [(hexJoin head).length] := doubleColons_shortened headHex.groups tailHex.groups
  have noZone : '%' ∉ hexJoin head ++ ':' :: ':' :: hexJoin tail := by
    simp only [List.mem_append, List.mem_cons, not_or]
    exact ⟨headHex.notMem_joined.2, by decide, by decide, tailHex.notMem_joined.2⟩
  have front : (hexJoin head ++ ':' :: ':' :: hexJoin tail).take (hexJoin head).length =
      hexJoin head := List.take_left
  have back : (hexJoin head ++ ':' :: ':' :: hexJoin tail).drop ((hexJoin head).length + 2) =
      hexJoin tail := by
    rw [← List.drop_drop, List.drop_left]
    rfl
  have headGroups : colonGroups (hexJoin head) = digitGroups head := colonGroups_joined headHex.groups
  have tailGroups : colonGroups (hexJoin tail) = digitGroups tail := colonGroups_joined tailHex.groups
  have noColon : (hexJoin head).getLast? ≠ some ':' := getLast?_joined headHex.groups
  have noColonBehind : (hexJoin tail).head? ≠ some ':' := by
    cases tail with
    | nil => simp [hexJoin]
    | cons piece rest => simpa [hexJoin] using head?_joined tailHex.groups []
  have fits : groupsFit true (digitGroups head) (digitGroups tail) = true := by
    rw [groupsFit_hextets]
    · simpa [digitGroups] using few
    · exact fun group member => (List.mem_append.mp member).elim (headHex group) (tailHex group)
  have shaped : isIPv6 (hexJoin head ++ ':' :: ':' :: hexJoin tail) = true := by
    simp only [isIPv6, withoutZone, if_neg noZone, doubled, front, back, noColon, noColonBehind,
      decide_false, Bool.or_self, Bool.false_eq_true, if_false]
    change groupsFit true (colonGroups (hexJoin head)) (colonGroups (hexJoin tail)) = true
    rw [headGroups, tailGroups]
    exact fits
  rw [parseIPv6, if_pos ⟨noZone, shaped⟩, piecesOf, doubled]
  simp only [front, back, headGroups, tailGroups, sidePieces_digitGroups headSmall,
    sidePieces_digitGroups tailSmall]

theorem read_plain (eight : EightPieces pieces) :
    parseIPv6 (hexJoin pieces) = some pieces := by
  have hex := hextets_digitGroups eight.2
  have plain : doubleColons (hexJoin pieces) 0 = [] := doubleColons_plain hex.groups
  have noZone : '%' ∉ hexJoin pieces := hex.notMem_joined.2
  have split : (hexJoin pieces).splitOn ':' = digitGroups pieces := by
    refine List.splitOn_intercalate ':' (fun part member => (hex.groups part member).2) ?_
    intro none
    have length := congrArg List.length none
    simp [eight.1] at length
  have shaped : isIPv6 (hexJoin pieces) = true := by
    simp only [isIPv6, withoutZone, if_neg noZone, plain, split]
    rw [groupsFit_hextets (by simpa using hex)]
    simp [digitGroups, eight.1]
  rw [parseIPv6, if_pos ⟨noZone, shaped⟩, piecesOf, plain]
  simp only [split, sidePieces_digitGroups eight.2]

theorem parse_serialize (eight : EightPieces pieces) :
    parseIPv6 (serializeIPv6 pieces) = some pieces := by
  unfold serializeIPv6
  split
  · exact read_plain eight
  · rename_i start length found
    obtain ⟨long, inside, whole⟩ := compressed_some found
    have lengths := eight.1
    rw [read_shortened]
    · rw [expand, List.length_take, List.length_drop, Nat.min_eq_left (by omega),
        show 8 - start - (pieces.length - (start + length)) = length by omega]
      exact congrArg some whole.symm
    · exact fun piece member => eight.2 piece (List.mem_of_mem_take member)
    · exact fun piece member => eight.2 piece (List.mem_of_mem_drop member)
    · rw [List.length_take, List.length_drop]
      omega

/-! ## Every address has eight numbers -/

theorem isIPv4_octets {dotted : List Char} (valid : isIPv4 dotted = true) :
    ∃ first second third fourth, dotted.splitOn '.' = [first, second, third, fourth] ∧
      ∀ octet ∈ [first, second, third, fourth], isV4Octet octet = true ∧ numberOf octet ≤ 255 := by
  simp only [isIPv4, Bool.and_eq_true, decide_eq_true_eq, List.all_eq_true] at valid
  obtain ⟨four, octets⟩ := valid
  obtain ⟨first, second, third, fourth, parts⟩ := List.length_eq_four.mp four
  exact ⟨first, second, third, fourth, parts, parts ▸ octets⟩

theorem v4Pieces_small {dotted : List Char} (valid : isIPv4 dotted = true) :
    ∃ high low, v4Pieces dotted = [high, low] ∧ high < 65536 ∧ low < 65536 := by
  obtain ⟨first, second, third, fourth, parts, octets⟩ := isIPv4_octets valid
  simp only [List.forall_mem_cons] at octets
  obtain ⟨⟨-, one⟩, ⟨-, two⟩, ⟨-, three⟩, ⟨-, four⟩, -⟩ := octets
  refine ⟨_, _, by simp only [v4Pieces, parts, List.map_cons, List.map_nil]; rfl, ?_, ?_⟩ <;> omega

theorem sidePieces_hextets {groups : List (List Char)} (hextets : Hextets groups) :
    (sidePieces groups).length = groups.length ∧ ∀ piece ∈ sidePieces groups, piece < 65536 := by
  have each : ∀ group ∈ groups, groupPieces group = [hextetValue group] := by
    intro group member
    rw [groupPieces, if_neg (notMem_hextet (hextets group member)).2.1]
  rw [sidePieces, List.flatMap_congr each]
  refine ⟨by simp, fun piece member => ?_⟩
  obtain ⟨group, listed, only⟩ := List.mem_flatMap.mp member
  rw [List.mem_singleton.mp only]
  obtain ⟨-, short, chars⟩ := isHextet_iff.mp (hextets group listed)
  calc hextetValue group < 16 ^ group.length := hextetValue_lt chars
    _ ≤ 16 ^ 4 := Nat.pow_le_pow_right (by decide) short
    _ = 65536 := rfl

theorem pieces_of_groupsFit {doubled : Bool} (fits : groupsFit doubled head tail = true) :
    (if doubled then (sidePieces (head ++ tail)).length ≤ 7
      else (sidePieces (head ++ tail)).length = 8) ∧
      ∀ piece ∈ sidePieces (head ++ tail), piece < 65536 := by
  have whole (hextets : Hextets (head ++ tail)) :
      (if doubled then (sidePieces (head ++ tail)).length ≤ 7
        else (sidePieces (head ++ tail)).length = 8) ∧
        ∀ piece ∈ sidePieces (head ++ tail), piece < 65536 := by
    obtain ⟨length, small⟩ := sidePieces_hextets hextets
    rw [groupsFit_hextets hextets] at fits
    rw [length]
    refine ⟨?_, small⟩
    split at fits <;> simp_all
  cases found : (head ++ tail).getLast? with
  | none =>
      refine whole fun group member => ?_
      rw [List.getLast?_eq_none_iff.mp found] at member
      cases member
  | some last =>
      obtain ⟨front, all⟩ := List.getLast?_eq_some_iff.mp found
      by_cases dotted : '.' ∈ last
      · simp only [groupsFit, found, if_pos dotted, Bool.and_eq_true] at fits
        simp only [all, List.dropLast_concat, List.all_eq_true] at fits
        obtain ⟨⟨-, isV4⟩, hextets, count⟩ := fits
        obtain ⟨length, small⟩ := sidePieces_hextets hextets
        obtain ⟨high, low, numbers, highSmall, lowSmall⟩ := v4Pieces_small isV4
        have pieces : sidePieces (head ++ tail) = sidePieces front ++ [high, low] := by
          rw [all, sidePieces, List.flatMap_append, ← sidePieces]
          simp [groupPieces, dotted, numbers]
        rw [pieces]
        refine ⟨?_, fun piece member => ?_⟩
        · simp only [List.length_append, List.length_cons, List.length_nil, length] at count ⊢
          cases doubled <;>
            simp only [Bool.false_eq_true, if_true, if_false, decide_eq_true_eq] at count ⊢ <;>
            omega
        · rcases List.mem_append.mp member with inFront | inLast
          · exact small piece inFront
          · rcases List.mem_pair.mp inLast with rfl | rfl
            · exact highSmall
            · exact lowSmall
      · simp only [groupsFit, found, if_neg dotted, Bool.and_eq_true, List.all_eq_true] at fits
        exact whole fits.1

theorem eightPieces_of_parse {addr : List Char}
    (parsed : parseIPv6 addr = some pieces) : EightPieces pieces := by
  simp only [parseIPv6] at parsed
  split at parsed
  · rename_i accepted
    obtain ⟨noZone, shaped⟩ := accepted
    cases parsed
    simp only [isIPv6, withoutZone, if_neg noZone] at shaped
    split at shaped
    · rename_i plain
      obtain ⟨length, small⟩ := pieces_of_groupsFit shaped
      simp only [List.append_nil, Bool.false_eq_true, if_false] at length small
      rw [EightPieces, piecesOf, plain]
      exact ⟨length, small⟩
    · rename_i start doubled
      split at shaped
      · cases shaped
      · obtain ⟨length, small⟩ := pieces_of_groupsFit shaped
        rw [EightPieces, piecesOf, doubled]
        change (sidePieces (colonGroups (addr.take start) ++ colonGroups (addr.drop (start + 2)))).length
          ≤ 7 at length
        change ∀ piece ∈ sidePieces (colonGroups (addr.take start) ++
          colonGroups (addr.drop (start + 2))), piece < 65536 at small
        rw [sidePieces, List.flatMap_append, List.length_append, ← sidePieces, ← sidePieces]
          at length
        rw [sidePieces, List.flatMap_append, ← sidePieces, ← sidePieces] at small
        refine ⟨?_, fun piece member => ?_⟩
        · simp only [expand, List.length_append, List.length_replicate]
          omega
        · simp only [expand, List.mem_append, List.mem_replicate] at member
          rcases member with (front | ⟨-, rfl⟩) | back
          · exact small piece (List.mem_append_left _ front)
          · decide
          · exact small piece (List.mem_append_right _ back)
    · cases shaped
  · cases parsed

end Validate

end Barycenter
