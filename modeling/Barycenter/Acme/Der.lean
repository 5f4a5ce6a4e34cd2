import Barycenter.Foundation.DelimitedText
import Barycenter.Foundation.DerRules

/-!
# The encoder of certificate requests

The encoder builds the few kinds of elements that a request consists of.  What
it writes reads back as what it was given, apart from numbers that it puts into
one octet or into 32 bits without asking whether they fit: an integer that is
given as a number, the first two arcs of an object identifier, and every later
arc.  An integer that is given as octets is written as it is, redundant zeros
included.
-/

namespace Barycenter

namespace Der

open DerRules

/-! ## The encoder -/

def len (n : Nat) : Except String Octets :=
  if n < 0x80 then .ok [UInt8.ofNat n]
  else if n ≤ 0xff then .ok [0x81, UInt8.ofNat n]
  else if n ≤ 0xffff then .ok [0x82, UInt8.ofNat (n >>> 8), UInt8.ofNat (n &&& 0xff)]
  else if n ≤ 0xffffff then
    .ok [0x83, UInt8.ofNat (n >>> 16), UInt8.ofNat ((n >>> 8) &&& 0xff), UInt8.ofNat (n &&& 0xff)]
  else .error s!"DER 길이가 너무 크다: {n} — 이 인코더는 CSR 크기만 다룬다"

def tlv (tag : UInt8) (body : Octets) : Except String Octets :=
  (len body.length).map fun header => tag :: (header ++ body)

def seq (parts : List Octets) : Except String Octets := tlv 0x30 parts.flatten

def set (parts : List Octets) : Except String Octets := tlv 0x31 parts.flatten

/-- `number | Buffer` -/
inductive IntegerArgument where
  | number (value : Nat)
  | buffer (octets : Octets)
  deriving DecidableEq, Repr

/-- The octets of an integer, with a zero in front of a set top bit. -/
def integerBody (argument : IntegerArgument) : Octets :=
  let given := match argument with
    | .number value => [UInt8.ofNat value]
    | .buffer octets => octets
  let body := if given.length = 0 then [0] else given
  if 0x80 ≤ body.headD 0 then 0 :: body else body

def integer (argument : IntegerArgument) : Except String Octets := tlv 0x02 (integerBody argument)

def bitString (body : Octets) : Except String Octets := tlv 0x03 (0 :: body)

def octetString (body : Octets) : Except String Octets := tlv 0x04 body

/-! ### Object identifiers -/

/-- The closest number of double precision; none from infinity on. -/
def nearestDouble (n : Nat) : Option Nat :=
  if n < 2 ^ 53 then some n
  else
    let shift := n.log2 - 52
    let quotient := n >>> shift
    let remainder := n % 2 ^ shift
    let half := 2 ^ (shift - 1)
    let up := half < remainder || remainder = half && quotient % 2 = 1
    let value := (if up then quotient + 1 else quotient) <<< shift
    if value < 2 ^ 1024 then some value else none

/-- `Number` on a decimal numeral or on no text at all, if the result is an integer. -/
def number (text : List Char) : Option Nat :=
  if text.all Char.isDigit then nearestDouble (Nat.ofDigitChars 10 text 0) else none

def firstOctet (first second : Nat) : UInt8 :=
  match (nearestDouble (first * 40)).bind fun product => nearestDouble (product + second) with
  | some sum => UInt8.ofNat sum
  | none => 0

/-- The groups of seven bits; `>>>=` goes through 32 bits. -/
def chunks (v : Nat) : List Nat :=
  let rest := (v % 2 ^ 32) >>> 7
  if rest = 0 then [v &&& 0x7f] else chunks rest ++ [v &&& 0x7f]
termination_by v
decreasing_by
  rw [Nat.shiftRight_eq_div_pow] at *
  omega

def withMarks : List Nat → Octets
  | [] => []
  | [chunk] => [UInt8.ofNat chunk]
  | chunk :: rest => UInt8.ofNat (chunk ||| 0x80) :: withMarks rest

def arcOctets (first second : Nat) (rest : List Nat) : Octets :=
  firstOctet first second :: rest.flatMap fun part => withMarks (chunks part)

def oid (dotted : List Char) : Except String Octets :=
  match (dotted.splitOn '.').mapM number with
  | some (first :: second :: rest) => tlv 0x06 (arcOctets first second rest)
  | _ => .error s!"OID 가 아니다: {String.ofList dotted}"

/-! ## What is built -/

inductive Element where
  | integer (argument : IntegerArgument)
  | bitString (body : Octets)
  | octetString (body : Octets)
  | oid (arcs : List Nat)
  | seq (parts : List Element)
  | set (parts : List Element)

def dotted (arcs : List Nat) : List Char := ['.'].intercalate (arcs.map (Nat.toDigits 10))

mutual

def Element.encode : Element → Except String Octets
  | .integer argument => Der.integer argument
  | .bitString body => Der.bitString body
  | .octetString body => Der.octetString body
  | .oid arcs => Der.oid (dotted arcs)
  | .seq parts => (encodeAll parts).bind Der.seq
  | .set parts => (encodeAll parts).bind Der.set

def encodeAll : List Element → Except String (List Octets)
  | [] => .ok []
  | part :: parts => part.encode.bind fun octets => (encodeAll parts).map (octets :: ·)

end

def IntegerArgument.value : IntegerArgument → Nat
  | .number value => value
  | .buffer octets => magnitude octets

mutual

def Element.meaning : Element → Value
  | .integer argument => .integer argument.value
  | .bitString body => .bitString 0 body
  | .octetString body => .octetString body
  | .oid arcs => .objectIdentifier arcs
  | .seq parts => .sequence (meanings parts)
  | .set parts => .set (meanings parts)

def meanings : List Element → List Value
  | [] => []
  | part :: parts => part.meaning :: meanings parts

end

/-! ## Conditions -/

/-- A number fits into an octet, and octets have no redundant zero in front. -/
def IntegerArgument.Fits : IntegerArgument → Prop
  | .number value => value < 256
  | .buffer octets => ∀ second rest, octets = 0 :: second :: rest → 0x80 ≤ second

/-- The first two arcs are ones that exist and fit into seven bits together, and
the others fit into 32. -/
def ArcsFit : List Nat → Prop
  | first :: second :: rest =>
      first ≤ 2 ∧ (first < 2 → second < 40) ∧ first * 40 + second < 128 ∧
        ∀ arc ∈ rest, arc < 2 ^ 32
  | _ => False

mutual

def Element.Fits : Element → Prop
  | .integer argument => argument.Fits
  | .bitString _ | .octetString _ => True
  | .oid arcs => ArcsFit arcs
  | .seq parts | .set parts => AllFit parts

def AllFit : List Element → Prop
  | [] => True
  | part :: parts => part.Fits ∧ AllFit parts

end

def maxContent : Nat := 2 ^ 24

mutual

/-- Every content has fewer than `2 ^ 24` octets. -/
def Element.Short : Element → Prop
  | .integer argument => (integerBody argument).length < maxContent
  | .bitString body => body.length + 1 < maxContent
  | .octetString body => body.length < maxContent
  | .oid arcs => ∀ first second rest, arcs.mapM nearestDouble = some (first :: second :: rest) →
      (arcOctets first second rest).length < maxContent
  | .seq parts | .set parts => AllShort parts ∧
      ∀ encoded, encodeAll parts = .ok encoded → encoded.flatten.length < maxContent

def AllShort : List Element → Prop
  | [] => True
  | part :: parts => part.Short ∧ AllShort parts

end

/-! ## Lengths and elements -/

theorem magnitude_two (first second : UInt8) :
    magnitude [first, second] = first.toNat * 256 + second.toNat := by
  simp [magnitude]

theorem magnitude_three (first second third : UInt8) :
    magnitude [first, second, third] =
      (first.toNat * 256 + second.toNat) * 256 + third.toNat := by
  simp [magnitude]

theorem mask_octet (n : Nat) : n &&& 0xff = n % 256 := Nat.and_two_pow_sub_one_eq_mod n 8

theorem readLength_len {n : Nat} {header : Octets} (written : len n = .ok header)
    (rest : Octets) : readLength (header ++ rest) = some (n, rest) := by
  unfold len at written
  simp only [Nat.shiftRight_eq_div_pow, mask_octet] at written
  split at written
  · cases written
    exact readLength_short (by assumption) rest
  rename_i short
  split at written
  · cases written
    have number : magnitude [UInt8.ofNat n] = n := by
      simp only [magnitude, List.foldl_cons, List.foldl_nil, UInt8.toNat_ofNat']
      omega
    have read := readLength_long [UInt8.ofNat n] 1 rfl (by decide) (by
        rintro zero
        have first := congrArg UInt8.toNat (Option.some.inj zero)
        simp only [UInt8.toNat_ofNat'] at first
        have none : n % 256 = 0 := first
        omega) (by omega) rest
    rwa [number] at read
  rename_i single
  split at written
  · cases written
    have number : magnitude [UInt8.ofNat (n / 2 ^ 8), UInt8.ofNat (n % 256)] = n := by
      simp only [magnitude_two, UInt8.toNat_ofNat']
      omega
    have read := readLength_long [UInt8.ofNat (n / 2 ^ 8), UInt8.ofNat (n % 256)] 2
      rfl (by decide) (by
        rintro zero
        have first := congrArg UInt8.toNat (Option.some.inj zero)
        simp only [UInt8.toNat_ofNat'] at first
        have none : n / 2 ^ 8 % 256 = 0 := first
        omega) (by omega) rest
    rwa [number] at read
  rename_i double
  split at written
  · cases written
    have number : magnitude [UInt8.ofNat (n / 2 ^ 16), UInt8.ofNat (n / 2 ^ 8 % 256),
        UInt8.ofNat (n % 256)] = n := by
      simp only [magnitude_three, UInt8.toNat_ofNat']
      omega
    have read := readLength_long [UInt8.ofNat (n / 2 ^ 16),
        UInt8.ofNat (n / 2 ^ 8 % 256), UInt8.ofNat (n % 256)] 3
      rfl (by decide) (by
        rintro zero
        have first := congrArg UInt8.toNat (Option.some.inj zero)
        simp only [UInt8.toNat_ofNat'] at first
        have none : n / 2 ^ 16 % 256 = 0 := first
        omega) (by omega) rest
    rwa [number] at read
  · cases written

theorem len_isOk {n : Nat} : (∃ header, len n = .ok header) ↔ n < maxContent := by
  unfold len maxContent
  split
  · exact ⟨fun _ => by omega, fun _ => ⟨_, rfl⟩⟩
  split
  · exact ⟨fun _ => by omega, fun _ => ⟨_, rfl⟩⟩
  split
  · exact ⟨fun _ => by omega, fun _ => ⟨_, rfl⟩⟩
  split
  · exact ⟨fun _ => by omega, fun _ => ⟨_, rfl⟩⟩
  · constructor
    · rintro ⟨_, same⟩
      cases same
    · omega

theorem tlv_isOk {tag : UInt8} {body : Octets} :
    (∃ octets, tlv tag body = .ok octets) ↔ body.length < maxContent := by
  rw [← len_isOk]
  unfold tlv
  cases len body.length <;> simp [Except.map]

def Rereads (value : Option Value) (octets : Octets) : Prop :=
  octets ≠ [] ∧ ∀ fuel, octets.length ≤ fuel → ∀ rest,
    readElement fuel (octets ++ rest) = value.map fun value => (value, rest)

theorem rereads_tlv {tag : UInt8} {body octets : Octets} {value : Option Value}
    (written : tlv tag body = .ok octets)
    (content : ∀ fuel, body.length < fuel → readContent (readParts fuel) tag body = value) :
    Rereads value octets := by
  unfold tlv at written
  cases headed : len body.length with
  | error message => simp [headed, Except.map] at written
  | ok header =>
      simp only [headed, Except.map, Except.ok.injEq] at written
      subst written
      have filled : header ≠ [] := by
        rintro rfl
        have read := readLength_len headed []
        simp [readLength] at read
      refine ⟨by simp, fun fuel enough rest => ?_⟩
      have positive := List.length_pos_iff.mpr filled
      simp only [List.length_cons, List.length_append] at enough
      obtain ⟨fuel, rfl⟩ : ∃ less, fuel = less + 1 := ⟨fuel - 1, by omega⟩
      rw [List.cons_append, List.append_assoc, readElement_framed rest (readLength_len headed),
        content fuel (by omega)]

/-! ## Integers -/

theorem integerBody_buffer {octets : Octets} :
    integerBody (.buffer octets) =
      match octets with
      | [] => [0]
      | first :: rest => if 0x80 ≤ first then 0 :: first :: rest else first :: rest := by
  cases octets with
  | nil => rfl
  | cons first rest => simp [integerBody]

theorem integerBody_number {value : Nat} :
    integerBody (.number value) = integerBody (.buffer [UInt8.ofNat value]) := rfl

theorem magnitude_zero (octets : Octets) : magnitude (0 :: octets) = magnitude octets := rfl

theorem readInteger_buffer (octets : Octets) :
    readInteger (integerBody (.buffer octets)) = some (magnitude octets : Int) ↔
      (IntegerArgument.buffer octets).Fits := by
  unfold IntegerArgument.Fits
  rw [integerBody_buffer]
  cases octets with
  | nil => simp [readInteger, magnitude]
  | cons first rest =>
      dsimp only
      split
      · rename_i high
        have apart : first ≠ 0 := by
          rintro rfl
          exact absurd high (by decide)
        have top : ¬first < 0x80 := UInt8.not_lt.mpr high
        have fits : ∀ second tail, first :: rest = 0 :: second :: tail → 0x80 ≤ second := by
          intro second tail same
          exact absurd (List.cons.inj same).1 apart
        refine iff_of_true ?_ fits
        simp [readInteger, top, magnitude_zero]
      · rename_i low
        have below : first < 0x80 := UInt8.not_le.mp low
        have unsigned : first ≠ 0xff := by
          rintro rfl
          exact absurd below (by decide)
        cases rest with
        | nil => simp [readInteger, below, magnitude]
        | cons second tail =>
            by_cases redundant : first = 0 ∧ second < 0x80
            · obtain ⟨rfl, small⟩ := redundant
              simp only [readInteger, small, and_self, true_or, if_true]
              refine iff_of_false (by simp) fun fits => ?_
              exact absurd small (UInt8.not_lt.mpr (fits second tail rfl))
            · have passes : ¬(first = 0 ∧ second < 0x80 ∨ first = 0xff ∧ 0x80 ≤ second) := by
                rintro (zero | ones)
                · exact redundant zero
                · exact unsigned ones.1
              refine iff_of_true ?_ ?_
              · simp [readInteger, passes, below]
              · intro other tail same
                obtain ⟨zero, rest⟩ := List.cons.inj same
                rw [← (List.cons.inj rest).1]
                by_contra small
                exact redundant ⟨zero, UInt8.not_le.mp small⟩

theorem readInteger_integerBody (argument : IntegerArgument) :
    readInteger (integerBody argument) = some (argument.value : Int) ↔ argument.Fits := by
  cases argument with
  | buffer octets => exact readInteger_buffer octets
  | number value =>
      have single : (IntegerArgument.buffer [UInt8.ofNat value]).Fits := by
        intro second rest same
        exact absurd (List.cons.inj same).2 (by simp)
      have read := (readInteger_buffer [UInt8.ofNat value]).mpr single
      rw [integerBody_number, read]
      simp only [magnitude, List.foldl_cons, List.foldl_nil, UInt8.toNat_ofNat',
        IntegerArgument.value, IntegerArgument.Fits, Option.some.injEq, Int.natCast_inj]
      omega

/-! ## Object identifiers -/

theorem mask_group (v : Nat) : v &&& 0x7f = v % 128 := Nat.and_two_pow_sub_one_eq_mod v 7

theorem chunks_eq (v : Nat) :
    chunks v =
      if v % 2 ^ 32 / 128 = 0 then [v % 128] else chunks (v % 2 ^ 32 / 128) ++ [v % 128] := by
  rw [chunks, mask_group, Nat.shiftRight_eq_div_pow]

theorem chunks_cases {motive : Nat → Prop} (last : ∀ v, v % 2 ^ 32 / 128 = 0 → motive v)
    (more : ∀ v, v % 2 ^ 32 / 128 ≠ 0 → motive (v % 2 ^ 32 / 128) → motive v) (v : Nat) :
    motive v := by
  induction v using Nat.strongRecOn with
  | ind v induction =>
      by_cases ends : v % 2 ^ 32 / 128 = 0
      · exact last v ends
      · exact more v ends (induction _ (by omega))

theorem chunks_filled (v : Nat) : chunks v ≠ [] := by
  rw [chunks_eq]
  split <;> simp

theorem chunks_small (v : Nat) : ∀ chunk ∈ chunks v, chunk < 128 := by
  induction v using chunks_cases with
  | last v ends =>
      rw [chunks_eq, if_pos ends]
      simp [Nat.mod_lt]
  | more v goes induction =>
      intro chunk member
      rw [chunks_eq, if_neg goes, List.mem_append, List.mem_singleton] at member
      rcases member with earlier | rfl
      · exact induction chunk earlier
      · exact Nat.mod_lt _ (by decide)

theorem chunks_value (v : Nat) : groupsValue 0 (chunks v) = v % 2 ^ 32 := by
  induction v using chunks_cases with
  | last v ends =>
      rw [chunks_eq, if_pos ends]
      simp only [groupsValue, List.foldl_cons, List.foldl_nil]
      omega
  | more v goes induction =>
      rw [groupsValue] at induction
      rw [chunks_eq, if_neg goes, groupsValue, List.foldl_append, induction]
      simp only [List.foldl_cons, List.foldl_nil]
      omega

theorem chunks_minimal (v : Nat) : (chunks v).head? = some 0 → (chunks v).length = 1 := by
  induction v using chunks_cases with
  | last v ends =>
      rw [chunks_eq, if_pos ends]
      exact fun _ => rfl
  | more v goes induction =>
      intro zero
      have value := chunks_value (v % 2 ^ 32 / 128)
      rw [chunks_eq, if_neg goes, List.head?_append_of_ne_nil _ (chunks_filled _)] at zero
      obtain ⟨chunk, single⟩ := List.length_eq_one_iff.mp (induction zero)
      rw [single] at zero value
      cases zero
      simp only [groupsValue, List.foldl_cons, List.foldl_nil] at value
      omega

theorem withMarks_eq {groups : List Nat} (small : ∀ group ∈ groups, group < 128) :
    withMarks groups = marked groups := by
  induction groups with
  | nil => rfl
  | cons group groups induction =>
      cases groups with
      | nil => rfl
      | cons next rest =>
          have bit : group ||| 0x80 = 128 + group := by
            have below : group < 2 ^ 7 := small group List.mem_cons_self
            rw [Nat.or_comm]
            exact (Nat.two_pow_add_eq_or_of_lt below 1).symm
          rw [withMarks, marked, bit, induction fun other member =>
            small other (List.mem_cons_of_mem _ member)]
          all_goals simp

theorem readSubidentifiers_chunks {pending : Option Nat} (v : Nat) (rest : Octets) :
    readSubidentifiers pending (withMarks (chunks v) ++ rest) =
      (readSubidentifiers none rest).map (groupsValue (pending.getD 0) (chunks v) :: ·) := by
  rw [withMarks_eq (chunks_small v)]
  exact readSubidentifiers_marked rest (chunks_filled v) (chunks_small v)
    fun _ => chunks_minimal v

theorem readSubidentifiers_arcs (arcs : List Nat) :
    readSubidentifiers none (arcs.flatMap fun arc => withMarks (chunks arc)) =
      some (arcs.map (· % 2 ^ 32)) := by
  induction arcs with
  | nil => simp
  | cons arc arcs induction =>
      rw [List.flatMap_cons, readSubidentifiers_chunks, induction]
      simp [chunks_value]

theorem nearestDouble_small {n : Nat} (small : n < 2 ^ 53) : nearestDouble n = some n :=
  if_pos small

theorem number_numeral (n : Nat) : number (Nat.toDigits 10 n) = nearestDouble n := by
  have digits : (Nat.toDigits 10 n).all Char.isDigit = true := List.all_eq_true.mpr
    fun char member => Nat.isDigit_of_mem_toDigits (b := 10) (by decide) (by decide) member
  rw [number, if_pos digits, Nat.ofDigitChars_ten_toDigits]

theorem mapM_numerals (arcs : List Nat) :
    (arcs.map (Nat.toDigits 10)).mapM number = arcs.mapM nearestDouble := by
  induction arcs with
  | nil => rfl
  | cons arc arcs induction =>
      rw [List.map_cons, List.mapM_cons, List.mapM_cons, number_numeral, induction]

variable {arcs : List Nat}

theorem splitOn_dotted (filled : arcs ≠ []) :
    (dotted arcs).splitOn '.' = arcs.map (Nat.toDigits 10) := by
  refine List.splitOn_intercalate '.' (fun numeral member => ?_) (by simpa using filled)
  obtain ⟨arc, -, rfl⟩ := List.mem_map.mp member
  intro dot
  have digit := Nat.isDigit_of_mem_toDigits (b := 10) (by decide) (by decide) dot
  exact absurd digit (by decide)

def rereadArcs (arcs : List Nat) : Option (List Nat) :=
  match arcs.mapM nearestDouble with
  | some (first :: second :: rest) => readArcs (arcOctets first second rest)
  | _ => none

theorem oid_dotted {octets : Octets} (written : oid (dotted arcs) = .ok octets) :
    ∃ first second rest, arcs.mapM nearestDouble = some (first :: second :: rest) ∧
      tlv 0x06 (arcOctets first second rest) = .ok octets := by
  rcases arcs with _ | ⟨arc, arcs⟩
  · cases written
  · rw [oid, splitOn_dotted (List.cons_ne_nil _ _), mapM_numerals] at written
    split at written
    · rename_i first second rest parts
      exact ⟨first, second, rest, parts, written⟩
    · cases written

variable {first second : Nat}

theorem oid_of_parts {arcs rest : List Nat}
    (parts : arcs.mapM nearestDouble = some (first :: second :: rest)) :
    oid (dotted arcs) = tlv 0x06 (arcOctets first second rest) := by
  rcases arcs with _ | ⟨arc, arcs⟩
  · cases parts
  · rw [oid, splitOn_dotted (List.cons_ne_nil _ _), mapM_numerals, parts]

theorem mapM_length {arcs parts : List Nat} (read : arcs.mapM nearestDouble = some parts) :
    parts.length = arcs.length := by
  induction arcs generalizing parts with
  | nil =>
      obtain rfl : parts = [] := by simpa using read.symm
      rfl
  | cons arc arcs induction =>
      simp only [List.mapM_cons, Option.bind_eq_bind, Option.bind_eq_some_iff, Option.pure_def,
        Option.some.injEq] at read
      obtain ⟨part, -, others, rest, rfl⟩ := read
      simp [induction rest]

theorem mapM_small (small : ∀ arc ∈ arcs, arc < 2 ^ 53) : arcs.mapM nearestDouble = some arcs := by
  induction arcs with
  | nil => rfl
  | cons arc arcs induction =>
      rw [List.mapM_cons, nearestDouble_small (small arc List.mem_cons_self),
        induction fun other member => small other (List.mem_cons_of_mem _ member)]
      rfl

theorem firstArcs_of_fit (exists_ : first ≤ 2) (below : first < 2 → second < 40) :
    firstArcs (first * 40 + second) = [first, second] := by
  unfold firstArcs
  split
  · simp only [List.cons.injEq, and_true]
    omega
  split
  · simp only [List.cons.injEq, and_true]
    omega
  · simp only [List.cons.injEq, and_true]
    omega

theorem firstOctet_small (small : first * 40 + second < 2 ^ 53) :
    firstOctet first second = UInt8.ofNat (first * 40 + second) := by
  rw [firstOctet, nearestDouble_small (by omega), Option.bind_some, nearestDouble_small small]

theorem rereadArcs_of_fit (fit : ArcsFit arcs) : rereadArcs arcs = some arcs := by
  rcases arcs with _ | ⟨first, _ | ⟨second, rest⟩⟩
  · exact fit.elim
  · exact fit.elim
  obtain ⟨exists_, below, together, others⟩ := fit
  have small : ∀ arc ∈ first :: second :: rest, arc < 2 ^ 53 := by
    simp only [List.forall_mem_cons]
    refine ⟨by omega, by omega, fun arc member => ?_⟩
    have bound := others arc member
    omega
  have octet : (firstOctet first second).toNat = first * 40 + second := by
    rw [firstOctet_small (by omega), UInt8.toNat_ofNat']
    omega
  have last : firstOctet first second < 0x80 := by
    rw [UInt8.lt_iff_toNat_lt, octet]
    exact together
  have kept : rest.map (· % 2 ^ 32) = rest := by
    conv_rhs => rw [← List.map_id rest]
    exact List.map_congr_left fun arc member => Nat.mod_eq_of_lt (others arc member)
  rw [rereadArcs, mapM_small small]
  simp only [arcOctets, readArcs]
  rw [readSubidentifiers_cons (by
    rintro ⟨-, same⟩
    exact absurd last (by rw [same]; decide)), if_pos last, readSubidentifiers_arcs, kept, octet]
  simp only [Option.map_some, Option.getD_none]
  rw [Nat.zero_mul, Nat.zero_add, Nat.mod_eq_of_lt together, firstArcs_of_fit exists_ below]
  rfl

theorem fit_of_rereadArcs (read : rereadArcs arcs = some arcs) : ArcsFit arcs := by
  unfold rereadArcs at read
  split at read
  · rename_i first second rest parts
    have counted := mapM_length parts
    unfold readArcs at read
    split at read
    · rename_i number others subidentifiers
      rw [arcOctets] at subidentifiers
      by_cases continues : (none : Option Nat) = none ∧ firstOctet first second = 0x80
      · rw [readSubidentifiers, if_pos continues] at subidentifiers
        cases subidentifiers
      rw [readSubidentifiers_cons continues] at subidentifiers
      have pair : ∃ left right, firstArcs number = [left, right] ∧ left ≤ 2 ∧
          (left < 2 → right < 40) ∧ left * 40 + right = number := by
        unfold firstArcs
        split
        · exact ⟨_, _, rfl, by omega, fun _ => by assumption, by omega⟩
        split
        · exact ⟨_, _, rfl, by omega, fun _ => by omega, by omega⟩
        · exact ⟨_, _, rfl, by omega, fun _ => by omega, by omega⟩
      obtain ⟨left, right, halves, exists_, below, together⟩ := pair
      rw [halves] at read
      obtain rfl : left :: right :: others = arcs := Option.some.inj read
      split at subidentifiers
      · -- The first octet ends the number: both arcs are in it.
        rename_i last
        rw [readSubidentifiers_arcs] at subidentifiers
        simp only [Option.map_some, Option.some.injEq, List.cons.injEq,
          Option.getD_none] at subidentifiers
        obtain ⟨rfl, rfl⟩ := subidentifiers
        rw [UInt8.lt_iff_toNat_lt] at last
        refine ⟨exists_, below, ?_, fun arc member => ?_⟩
        · have bound : (firstOctet first second).toNat < 128 := last
          omega
        · obtain ⟨other, -, rfl⟩ := List.mem_map.mp member
          exact Nat.mod_lt _ (by decide)
      · -- It goes on into the next arc, so that one arc is missing.
        rcases rest with _ | ⟨next, rest⟩
        · simp [readSubidentifiers] at subidentifiers
        · rw [List.flatMap_cons, readSubidentifiers_chunks,
            readSubidentifiers_arcs] at subidentifiers
          simp only [Option.map_some, Option.some.injEq, List.cons.injEq] at subidentifiers
          obtain ⟨-, rfl⟩ := subidentifiers
          simp at counted
    · cases read
  · cases read

/-! ## Elements -/

mutual

def Element.reread : Element → Option Value
  | .integer argument => (readInteger (integerBody argument)).map .integer
  | .bitString body => some (.bitString 0 body)
  | .octetString body => some (.octetString body)
  | .oid arcs => (rereadArcs arcs).map .objectIdentifier
  | .seq parts => (rereadAll parts).map .sequence
  | .set parts => (rereadAll parts).map .set

def rereadAll : List Element → Option (List Value)
  | [] => some []
  | part :: parts => part.reread.bind fun value => (rereadAll parts).map (value :: ·)

end

theorem parts_written {parts : List Element} {make : List Octets → Except String Octets}
    {octets : Octets} (written : (encodeAll parts).bind make = .ok octets) :
    ∃ encoded, encodeAll parts = .ok encoded ∧ make encoded = .ok octets := by
  cases inner : encodeAll parts with
  | error message => simp [inner, Except.bind] at written
  | ok encoded => exact ⟨encoded, rfl, by rwa [inner] at written⟩

theorem part_written {part : Element} {parts : List Element} {encoded : List Octets}
    (written : encodeAll (part :: parts) = .ok encoded) :
    ∃ octets rest, part.encode = .ok octets ∧ encodeAll parts = .ok rest ∧
      encoded = octets :: rest := by
  rw [encodeAll] at written
  cases first : part.encode with
  | error message => simp [first, Except.bind] at written
  | ok octets =>
      cases others : encodeAll parts with
      | error message => simp [first, others, Except.bind, Except.map] at written
      | ok rest =>
          simp only [first, others, Except.bind, Except.map, Except.ok.injEq] at written
          exact ⟨octets, rest, rfl, rfl, written.symm⟩

theorem readBits_whole (body : Octets) : readBits (0 :: body) = some (0, body) := by
  simp [readBits, Nat.mod_one]

mutual

theorem Element.rereads (element : Element) {octets : Octets}
    (written : element.encode = .ok octets) : Rereads element.reread octets := by
  cases element with
  | integer argument | octetString body =>
      exact rereads_tlv written fun _ _ => rfl
  | bitString body =>
      refine rereads_tlv written fun _ _ => ?_
      rw [readContent, if_neg (by decide), if_pos rfl, readBits_whole]
      rfl
  | oid arcs =>
      obtain ⟨first, second, rest, parts, framed⟩ := oid_dotted written
      refine rereads_tlv framed fun _ _ => ?_
      rw [Element.reread, rereadArcs, parts]
      rfl
  | seq parts | set parts =>
      obtain ⟨encoded, inner, framed⟩ := parts_written written
      refine rereads_tlv framed fun fuel enough => ?_
      rw [Element.reread, ← rereadAll_read parts inner fuel enough]
      rfl

theorem rereadAll_read (parts : List Element) {encoded : List Octets}
    (written : encodeAll parts = .ok encoded) (fuel : Nat) (enough : encoded.flatten.length < fuel) :
    readParts fuel encoded.flatten = rereadAll parts := by
  obtain ⟨fuel, rfl⟩ : ∃ less, fuel = less + 1 := ⟨fuel - 1, by omega⟩
  cases parts with
  | nil =>
      rw [encodeAll] at written
      cases written
      rfl
  | cons part parts =>
      obtain ⟨octets, rest, first, others, rfl⟩ := part_written written
      rw [List.flatten_cons, List.length_append] at enough
      obtain ⟨filled, read⟩ := part.rereads first
      have positive := List.length_pos_iff.mpr filled
      rw [List.flatten_cons, readParts_cons filled (read fuel (by omega) rest.flatten),
        rereadAll_read parts others fuel (by omega), rereadAll]

end

theorem decode_encode {element : Element} {octets : Octets}
    (written : element.encode = .ok octets) : decode octets = element.reread := by
  have read := (element.rereads written).2 octets.length (Nat.le_refl _) []
  rw [List.append_nil] at read
  rw [decode, read]
  cases element.reread <;> rfl

mutual

theorem Element.reread_iff (element : Element) :
    element.reread = some element.meaning ↔ element.Fits := by
  cases element with
  | integer argument =>
      rw [Element.Fits, ← readInteger_integerBody]
      simp [Element.reread, Element.meaning]
  | bitString body | octetString body => exact iff_of_true rfl trivial
  | oid arcs =>
      simp only [Element.reread, Element.meaning, Element.Fits, Option.map_eq_some_iff,
        Value.objectIdentifier.injEq, exists_eq_right]
      exact ⟨fit_of_rereadArcs, rereadArcs_of_fit⟩
  | seq parts | set parts =>
      rw [Element.Fits, ← rereadAll_iff parts]
      simp [Element.reread, Element.meaning]

theorem rereadAll_iff (parts : List Element) :
    rereadAll parts = some (meanings parts) ↔ AllFit parts := by
  cases parts with
  | nil => exact iff_of_true rfl trivial
  | cons part parts =>
      rw [AllFit, ← part.reread_iff, ← rereadAll_iff parts]
      cases first : part.reread <;> simp [rereadAll, meanings, first, and_comm]

end

mutual

theorem Element.written (element : Element) (fits : element.Fits) (short : element.Short) :
    ∃ octets, element.encode = .ok octets := by
  cases element with
  | integer argument | bitString body | octetString body => exact tlv_isOk.mpr short
  | oid arcs =>
      rw [Element.Fits] at fits
      rcases arcs with _ | ⟨first, _ | ⟨second, rest⟩⟩
      · exact fits.elim
      · exact fits.elim
      have reread := rereadArcs_of_fit fits
      unfold rereadArcs at reread
      split at reread
      · rename_i first second rest parts
        rw [Element.encode, oid_of_parts parts]
        exact tlv_isOk.mpr (short first second rest parts)
      · cases reread
  | seq parts | set parts =>
      obtain ⟨encoded, inner⟩ := written_all parts fits short.1
      rw [Element.encode, inner]
      exact tlv_isOk.mpr (short.2 encoded inner)

theorem written_all (parts : List Element) (fit : AllFit parts) (short : AllShort parts) :
    ∃ encoded, encodeAll parts = .ok encoded := by
  cases parts with
  | nil => exact ⟨[], rfl⟩
  | cons part parts =>
      obtain ⟨octets, first⟩ := part.written fit.1 short.1
      obtain ⟨encoded, others⟩ := written_all parts fit.2 short.2
      exact ⟨octets :: encoded, by rw [encodeAll, first, Except.bind, others]; rfl⟩

end

mutual

theorem Element.short_of_written (element : Element) {octets : Octets}
    (written : element.encode = .ok octets) : element.Short := by
  cases element with
  | integer argument | bitString body | octetString body => exact tlv_isOk.mp ⟨octets, written⟩
  | oid arcs =>
      intro first second rest parts
      rw [Element.encode, oid_of_parts parts] at written
      exact tlv_isOk.mp ⟨octets, written⟩
  | seq parts | set parts =>
      obtain ⟨encoded, inner, framed⟩ := parts_written written
      refine ⟨short_of_all_written parts inner, fun other same => ?_⟩
      cases inner.symm.trans same
      exact tlv_isOk.mp ⟨octets, framed⟩

theorem short_of_all_written (parts : List Element) {encoded : List Octets}
    (written : encodeAll parts = .ok encoded) : AllShort parts := by
  cases parts with
  | nil => trivial
  | cons part parts =>
      obtain ⟨octets, rest, first, others, -⟩ := part_written written
      exact ⟨part.short_of_written first, short_of_all_written parts others⟩

end

/-- The octets exist, and say under the rules what was meant, and nothing else. -/
def Element.Decodable (element : Element) : Prop :=
  ∃ octets, element.encode = .ok octets ∧ decode octets = some element.meaning

theorem decodable_iff_fits (element : Element) (short : element.Short) :
    element.Decodable ↔ element.Fits := by
  rw [← element.reread_iff]
  constructor
  · rintro ⟨octets, written, decoded⟩
    rw [← decode_encode written, decoded]
  · intro reread
    obtain ⟨octets, written⟩ := element.written (element.reread_iff.mp reread) short
    exact ⟨octets, written, by rw [decode_encode written, reread]⟩

/-- The name of the extension, a text and a number with a set top bit. -/
def namedExtension : Element :=
  .seq [.oid [2, 5, 29, 17], .octetString [0x30, 0x00], .integer (.number 200)]

theorem namedExtension_encode : namedExtension.encode = .ok [0x30, 0x0d, 0x06, 0x03, 0x55, 0x1d,
    0x11, 0x04, 0x02, 0x30, 0x00, 0x02, 0x02, 0x00, 0xc8] := by
  decide +kernel

theorem namedExtension_decodable : namedExtension.Decodable := by
  refine (decodable_iff_fits _ (Element.short_of_written _ namedExtension_encode)).mpr ?_
  exact ⟨⟨by decide, by decide, by decide, by decide⟩, trivial,
    show 200 < 256 by decide, trivial⟩

/-- The first two arcs of `2.999` make 1079, of which one octet keeps 55. -/
theorem combined_arcs_truncated :
    (Element.oid [2, 999]).Short ∧ (Element.oid [2, 999]).encode = .ok [0x06, 0x01, 0x37] ∧
      decode [0x06, 0x01, 0x37] = some (.objectIdentifier [1, 15]) ∧
        ¬(Element.oid [2, 999]).Decodable := by
  have written : (Element.oid [2, 999]).encode = .ok [0x06, 0x01, 0x37] := by decide +kernel
  have decoded : decode [0x06, 0x01, 0x37] = some (.objectIdentifier [1, 15]) := rfl
  refine ⟨Element.short_of_written _ written, written, decoded, ?_⟩
  rintro ⟨octets, same, meant⟩
  cases written.symm.trans same
  rw [decoded] at meant
  simp [Element.meaning] at meant

end Der

end Barycenter
