import Barycenter.Route.HostPattern

/-!
# Telling IP addresses from other text

The judgement is the one of the runtime's own `isIP`: a leading zero is not an
IPv4 octet, an IPv6 address may carry a zone, `::` stands for at least one group
and occurs once, and an embedded IPv4 address stands at the end.
-/

namespace Barycenter

namespace Validate

inductive Family where
  | v4
  | v6
  deriving DecidableEq, Repr

def numberOf (digits : List Char) : Nat :=
  digits.foldl (fun number digit => number * 10 + (digit.toNat - '0'.toNat)) 0

/-- `V4_OCTET` -/
def isV4Octet (octet : List Char) : Bool :=
  octet = ['0'] ||
    (octet.head?.any (fun first => first.isDigit && first ≠ '0') &&
      octet.length ≤ 3 && octet.all Char.isDigit)

def isIPv4 (input : List Char) : Bool :=
  let parts := input.splitOn '.'
  parts.length = 4 && parts.all fun part => isV4Octet part && numberOf part ≤ 255

/-- `HEXTET` -/
def isHextet (group : List Char) : Bool :=
  1 ≤ group.length && group.length ≤ 4 &&
    group.all fun char =>
      char.isDigit || ('a' ≤ char && char ≤ 'f') || ('A' ≤ char && char ≤ 'F')

/-- The address in front of the zone; none when the zone is empty or a second one follows. -/
def withoutZone (input : List Char) : Option (List Char) :=
  if '%' ∈ input then
    let zone := (input.dropWhile (· ≠ '%')).tail
    if zone = [] || '%' ∈ zone then none else some (input.takeWhile (· ≠ '%'))
  else some input

/-- The positions at which `::` occurs. -/
def doubleColons : List Char → Nat → List Nat
  | ':' :: ':' :: rest, position => position :: doubleColons (':' :: rest) (position + 1)
  | _ :: rest, position => doubleColons rest (position + 1)
  | [], _ => []

/-- The groups at both sides of `::`; without one there are no groups behind it. -/
def groupsFit (doubled : Bool) (head tail : List (List Char)) : Bool :=
  let all := head ++ tail
  let counted (hextets : List (List Char)) (groups : Nat) : Bool :=
    hextets.all isHextet && if doubled then groups ≤ 7 else groups = 8
  match all.getLast? with
  | some last =>
      if '.' ∈ last then
        !(doubled && tail = []) && isIPv4 last && counted all.dropLast (all.length + 1)
      else counted all all.length
  | none => counted all all.length

def isIPv6 (input : List Char) : Bool :=
  let groupsOf (side : List Char) : List (List Char) := if side = [] then [] else side.splitOn ':'
  match withoutZone input with
  | none => false
  | some addr =>
      match doubleColons addr 0 with
      | [] => groupsFit false (addr.splitOn ':') []
      | [at_] =>
          let head := addr.take at_
          let tail := addr.drop (at_ + 2)
          if head.getLast? = some ':' || tail.head? = some ':' then false
          else groupsFit true (groupsOf head) (groupsOf tail)
      | _ => false

def ipVersion (input : String) : Option Family :=
  if isIPv4 input.toList then some .v4
  else if isIPv6 input.toList then some .v6
  else none

example : ["01.2.3.4", "fe80::1%eth0", "fe80::1%", "00000::1", "1:2:3:4:5:6:7::8", "1.2.3.4::",
    "::ffff:1.2.3.4", "1:::2"].map ipVersion =
    [none, some .v6, none, none, none, none, some .v6, none] := by
  decide +kernel

theorem isIPv4_chars {input : List Char} (valid : isIPv4 input = true) {char : Char}
    (member : char ∈ input) : char = '.' ∨ char.isDigit = true := by
  simp only [isIPv4, Bool.and_eq_true, List.all_eq_true] at valid
  rcases Route.mem_label member with dot | ⟨octet, isOctet, inside⟩
  · exact .inl dot
  · have shaped := (valid.2 octet isOctet).1
    simp only [isV4Octet, Bool.or_eq_true, Bool.and_eq_true, decide_eq_true_eq,
      List.all_eq_true] at shaped
    rcases shaped with rfl | ⟨-, digits⟩
    · rw [List.mem_singleton.mp inside]
      exact .inr (by decide)
    · exact .inr (digits char inside)

theorem ipVersion_v4 {input : String} (version : ipVersion input = some .v4) :
    isIPv4 input.toList = true := by
  unfold ipVersion at version
  split at version
  · assumption
  · split at version <;> cases version

end Validate

end Barycenter
