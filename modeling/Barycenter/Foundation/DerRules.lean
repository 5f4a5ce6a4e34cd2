import Mathlib.Data.List.Basic
import Mathlib.Algebra.Group.Nat.Defs

/-!
# The distinguished encoding rules

A reader that accepts only what the rules allow: definite lengths in the fewest
octets, integers and object identifiers without redundant leading octets, and
padding bits that are zero.  The order within a set depends on the type of the
set, which a reader without a schema does not know; it is not judged here.
-/

namespace Barycenter

namespace DerRules

abbrev Octets := List UInt8

inductive Value where
  | integer (value : Int)
  | bitString (unused : Nat) (octets : Octets)
  | octetString (octets : Octets)
  | objectIdentifier (arcs : List Nat)
  | sequence (parts : List Value)
  | set (parts : List Value)

/-- The number that octets write, the most significant first. -/
def magnitude (octets : Octets) : Nat :=
  octets.foldl (fun number octet => number * 256 + octet.toNat) 0

/-! ## The parts of an encoding -/

def readLength : Octets → Option (Nat × Octets)
  | [] => none
  | first :: rest =>
      if first < 0x80 then some (first.toNat, rest)
      else
        let count := first.toNat - 0x80
        let octets := rest.take count
        let length := magnitude octets
        if count ≠ 0 ∧ first ≠ 0xff ∧ octets.length = count ∧ octets.head? ≠ some 0 ∧ 0x80 ≤ length
        then some (length, rest.drop count)
        else none

def readInteger : Octets → Option Int
  | [] => none
  | [octet] => some (if octet < 0x80 then octet.toNat else (octet.toNat : Int) - 256)
  | first :: second :: rest =>
      let octets := first :: second :: rest
      if first = 0 ∧ second < 0x80 ∨ first = 0xff ∧ 0x80 ≤ second then none
      else if first < 0x80 then some (magnitude octets)
      else some ((magnitude octets : Int) - (256 ^ octets.length : Nat))

def readBits : Octets → Option (Nat × Octets)
  | [] => none
  | unused :: octets =>
      let padding := unused.toNat
      if padding ≤ 7 ∧ (octets = [] → padding = 0) ∧
          (octets.getLast?.all fun last => last.toNat % 2 ^ padding = 0) = true
      then some (padding, octets)
      else none

/-- The numbers in base 128, where only the last octet of each is below 128. -/
def readSubidentifiers : Option Nat → Octets → Option (List Nat)
  | none, [] => some []
  | some _, [] => none
  | pending, octet :: rest =>
      if pending = none ∧ octet = 0x80 then none
      else
        let number := pending.getD 0 * 128 + octet.toNat % 128
        if octet < 0x80 then (readSubidentifiers none rest).map (number :: ·)
        else readSubidentifiers (some number) rest

def firstArcs (number : Nat) : List Nat :=
  if number < 40 then [0, number]
  else if number < 80 then [1, number - 40]
  else [2, number - 80]

def readArcs (body : Octets) : Option (List Nat) :=
  match readSubidentifiers none body with
  | some (first :: rest) => some (firstArcs first ++ rest)
  | _ => none

/-! ## Elements -/

/-- The value of an element, given a reader of the elements inside it. -/
def readContent (readParts : Octets → Option (List Value)) (tag : UInt8) (body : Octets) :
    Option Value :=
  if tag = 0x02 then (readInteger body).map .integer
  else if tag = 0x03 then (readBits body).map fun bits => .bitString bits.1 bits.2
  else if tag = 0x04 then some (.octetString body)
  else if tag = 0x06 then (readArcs body).map .objectIdentifier
  else if tag = 0x30 then (readParts body).map .sequence
  else if tag = 0x31 then (readParts body).map .set
  else none

mutual

def readElement : Nat → Octets → Option (Value × Octets)
  | 0, _ => none
  | _ + 1, [] => none
  | fuel + 1, tag :: rest =>
      match readLength rest with
      | none => none
      | some (length, rest) =>
          let body := rest.take length
          if body.length = length then
            (readContent (readParts fuel) tag body).map fun value => (value, rest.drop length)
          else none

def readParts : Nat → Octets → Option (List Value)
  | 0, _ => none
  | _ + 1, [] => some []
  | fuel + 1, octet :: octets =>
      match readElement fuel (octet :: octets) with
      | none => none
      | some (value, rest) => (readParts fuel rest).map (value :: ·)

end

def decode (octets : Octets) : Option Value :=
  match readElement octets.length octets with
  | some (value, []) => some value
  | _ => none

/-! ## Reading what was framed -/

theorem readLength_short {length : Nat} (short : length < 128) (rest : Octets) :
    readLength (UInt8.ofNat length :: rest) = some (length, rest) := by
  have number : (UInt8.ofNat length).toNat = length := by
    simp only [UInt8.toNat_ofNat']
    omega
  have below : UInt8.ofNat length < 0x80 := by
    rw [UInt8.lt_iff_toNat_lt, number]
    exact short
  rw [readLength, if_pos below, number]

theorem readLength_long (octets : Octets) (count : Nat) (counted : octets.length = count)
    (few : count < 127) (filled : octets.head? ≠ some 0) (long : 128 ≤ magnitude octets)
    (rest : Octets) :
    readLength (UInt8.ofNat (128 + count) :: (octets ++ rest)) = some (magnitude octets, rest) := by
  have number : (UInt8.ofNat (128 + count)).toNat = 128 + count := by
    simp only [UInt8.toNat_ofNat']
    omega
  have above : ¬UInt8.ofNat (128 + count) < 0x80 := by
    rw [UInt8.lt_iff_toNat_lt, number]
    exact Nat.not_lt.mpr (Nat.le_add_right 128 count)
  have apart : UInt8.ofNat (128 + count) ≠ 0xff := by
    intro same
    have := congrArg UInt8.toNat same
    rw [number] at this
    exact absurd this (by simp; omega)
  have some_octets : count ≠ 0 := by
    rintro rfl
    rw [List.eq_nil_of_length_eq_zero counted] at long
    exact absurd long (by decide)
  have same : (UInt8.ofNat (128 + count)).toNat - 0x80 = count := by
    rw [number]
    exact Nat.add_sub_cancel_left ..
  simp only [readLength, if_neg above, same]
  rw [List.take_left' counted, List.drop_left' counted,
    if_pos ⟨some_octets, apart, counted, filled, long⟩]

theorem readElement_framed {tag : UInt8} {header body : Octets} {fuel : Nat} (rest : Octets)
    (framed : ∀ rest, readLength (header ++ rest) = some (body.length, rest)) :
    readElement (fuel + 1) (tag :: (header ++ (body ++ rest))) =
      (readContent (readParts fuel) tag body).map fun value => (value, rest) := by
  simp only [readElement, framed]
  rw [List.take_left' rfl, List.drop_left' rfl, if_pos rfl]

theorem readParts_cons {fuel : Nat} {element rest : Octets} {value : Option Value}
    (filled : element ≠ [])
    (read : readElement fuel (element ++ rest) = value.map fun value => (value, rest)) :
    readParts (fuel + 1) (element ++ rest) =
      value.bind fun value => (readParts fuel rest).map (value :: ·) := by
  obtain ⟨octet, octets, rfl⟩ := List.exists_cons_of_ne_nil filled
  rw [List.cons_append] at read ⊢
  rw [readParts, read]
  cases value <;> rfl

/-! ### Numbers in base 128 -/

/-- Groups of seven bits, where all but the last octet are marked. -/
def marked : List Nat → Octets
  | [] => []
  | [group] => [UInt8.ofNat group]
  | group :: groups => UInt8.ofNat (128 + group) :: marked groups

def groupsValue (start : Nat) (groups : List Nat) : Nat :=
  groups.foldl (fun number group => number * 128 + group) start

@[simp] theorem readSubidentifiers_nil : readSubidentifiers none [] = some [] := by
  rw [readSubidentifiers]

theorem readSubidentifiers_cons {pending : Option Nat} {octet : UInt8} {rest : Octets}
    (continues : ¬(pending = none ∧ octet = 0x80)) :
    readSubidentifiers pending (octet :: rest) =
      if octet < 0x80 then
        (readSubidentifiers none rest).map ((pending.getD 0 * 128 + octet.toNat % 128) :: ·)
      else readSubidentifiers (some (pending.getD 0 * 128 + octet.toNat % 128)) rest := by
  cases pending <;> rw [readSubidentifiers, if_neg continues]

theorem readSubidentifiers_marked {groups : List Nat} {pending : Option Nat} (rest : Octets)
    (filled : groups ≠ []) (small : ∀ group ∈ groups, group < 128)
    (minimal : pending = none → groups.head? = some 0 → groups.length = 1) :
    readSubidentifiers pending (marked groups ++ rest) =
      (readSubidentifiers none rest).map (groupsValue (pending.getD 0) groups :: ·) := by
  induction groups generalizing pending with
  | nil => exact absurd rfl filled
  | cons group groups induction =>
      have below := small group List.mem_cons_self
      cases groups with
      | nil =>
          have number : (UInt8.ofNat group).toNat = group := by
            simp only [UInt8.toNat_ofNat']
            omega
          have last : UInt8.ofNat group < 0x80 := by
            rw [UInt8.lt_iff_toNat_lt, number]
            exact below
          rw [marked, List.singleton_append, readSubidentifiers_cons (by
            rintro ⟨-, same⟩
            exact absurd last (by rw [same]; decide)), if_pos last, number,
            Nat.mod_eq_of_lt below]
          rfl
      | cons next groups =>
          have number : (UInt8.ofNat (128 + group)).toNat = 128 + group := by
            simp only [UInt8.toNat_ofNat']
            omega
          have goes : ¬UInt8.ofNat (128 + group) < 0x80 := by
            rw [UInt8.lt_iff_toNat_lt, number]
            exact Nat.not_lt.mpr (Nat.le_add_right 128 group)
          rw [marked, List.cons_append, readSubidentifiers_cons (by
            rintro ⟨starts, same⟩
            have zero := congrArg UInt8.toNat same
            rw [number] at zero
            have first : group = 0 := by simpa using zero
            exact absurd (minimal starts (by rw [first]; rfl)) (by simp)), if_neg goes, number,
            induction (by simp) (fun group member => small group (List.mem_cons_of_mem _ member))
              (fun none => by cases none)]
          · simp [groupsValue, Nat.mod_eq_of_lt below]
          · simp

end DerRules

end Barycenter
