import Barycenter.Store.Tables
import Barycenter.Validate.Ip
import Mathlib.Algebra.Group.Nat.Defs

/-!
# Address ranges

A range is an address with the length of its network part, or one address.  A
range whose host bits are set is read as its network.  A list of ranges may also
name a set of addresses.
-/

namespace Barycenter

namespace Validate

/-- A decimal number of at most three digits without leading zeros. -/
def isPrefixLength (digits : List Char) : Bool :=
  digits = ['0'] ||
    (digits.head?.any (fun first => first.isDigit && first ≠ '0') && digits.length ≤ 3 &&
      digits.all Char.isDigit)

def widthOf : Family → Nat
  | .v4 => 32
  | .v6 => 128

def cidrParts (input : String) : List Char × Option (List Char) :=
  let chars := input.toList
  (chars.takeWhile (· ≠ '/'), if '/' ∈ chars then some (chars.dropWhile (· ≠ '/')).tail else none)

def cidrVersion (input : String) : Option Family :=
  let (addr, length) := cidrParts input
  if '%' ∈ addr then none
  else
    match ipVersion (String.ofList addr), length with
    | none, _ => none
    | some version, none => some version
    | some version, some digits =>
        if isPrefixLength digits && numberOf digits ≤ widthOf version then some version else none

/-- The key of the set that `@key` refers to. -/
def addressSetRef (input : String) : Option String :=
  match input.toList with
  | '@' :: key =>
      if Store.keySyntax (String.ofList key) then some (String.ofList key) else none
  | _ => none

/-! ## Covering -/

def hexValue (char : Char) : Nat :=
  if char.isDigit then char.toNat - '0'.toNat else char.toLower.toNat - 'a'.toNat + 10

def hexNumber (digits : List Char) : Nat :=
  digits.foldl (fun number digit => number * 16 + hexValue digit) 0

def v4Bits (addr : List Char) : Nat :=
  (addr.splitOn '.').foldl (fun number octet => number * 256 + numberOf octet) 0

/-- The groups of an address, with those that `::` stands for. -/
def v6Groups (addr : List Char) : List (List Char) :=
  let groupsOf (side : List Char) : List (List Char) := if side = [] then [] else side.splitOn ':'
  match doubleColons addr 0 with
  | [] => addr.splitOn ':'
  | at_ :: _ =>
      let head := groupsOf (addr.take at_)
      let tail := groupsOf (addr.drop (at_ + 2))
      head ++ List.replicate (8 - head.length - tail.length) ['0'] ++ tail

def v6Bits (addr : List Char) : Nat :=
  let tailPart := (addr.reverse.takeWhile (· ≠ ':')).reverse
  let numberOfGroups (groups : List (List Char)) : Nat :=
    groups.foldl (fun number group => number * 65536 + hexNumber group) 0
  if '.' ∈ tailPart then
    let high := numberOfGroups (v6Groups (addr.take (addr.length - tailPart.length) ++ "0:0".toList))
    high / 2 ^ 32 * 2 ^ 32 + v4Bits tailPart
  else numberOfGroups (v6Groups addr)

def ipBits (addr : List Char) : Option (Family × Nat) :=
  if '%' ∈ addr then none
  else
    match ipVersion (String.ofList addr) with
    | none => none
    | some .v4 => some (.v4, v4Bits addr)
    | some .v6 => some (.v6, v6Bits addr)

/-- A network: its family, its first address and the length of its network part. -/
structure Network where
  family : Family
  first : Nat
  length : Nat
  deriving DecidableEq, Repr

def networkOf (input : String) : Option Network :=
  match cidrVersion input, ipBits (cidrParts input).1 with
  | some _, some (family, number) =>
      let width := widthOf family
      let length := match (cidrParts input).2 with
        | none => width
        | some digits => numberOf digits
      some ⟨family, number / 2 ^ (width - length) * 2 ^ (width - length), length⟩
  | _, _ => none

def cidrCovers (outer inner : String) : Bool :=
  match networkOf outer, networkOf inner with
  | some wide, some narrow =>
      let host := 2 ^ (widthOf wide.family - wide.length)
      wide.family = narrow.family && wide.length ≤ narrow.length &&
        narrow.first / host * host = wide.first
  | _, _ => false

example : [("10.0.0.0/8", "10.1.0.0/16"), ("10.1.0.0/16", "10.0.0.0/8"),
    ("10.0.0.1/8", "10.9.9.9"), ("2001:db8::/32", "2001:db8:1::5"),
    ("::/0", "::ffff:1.2.3.4")].map (fun (outer, inner) => cidrCovers outer inner) =
    [true, false, true, true, true] := by
  decide +kernel

end Validate

end Barycenter
