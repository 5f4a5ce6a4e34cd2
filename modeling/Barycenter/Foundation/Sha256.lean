import Mathlib.Data.List.Basic
import Mathlib.Algebra.Group.Nat.Defs

/-!
# The SHA-256 digest of a text

The digest is the one of the runtime: the text is encoded in UTF-8, padded to
blocks of sixteen words of 32 bits, and written in lower-case hexadecimal
digits.  Words are natural numbers below `2 ^ 32`.
-/

namespace Barycenter

namespace Sha256

def wordSize : Nat := 2 ^ 32

def add (left right : Nat) : Nat := (left + right) % wordSize

def rotateRight (count word : Nat) : Nat :=
  (word >>> count) ||| ((word <<< (32 - count)) % wordSize)

def complement (word : Nat) : Nat := word ^^^ (wordSize - 1)

/-- The fractional parts of the cube roots of the first primes. -/
def roundConstants : List Nat :=
  [0x428a2f98, 0x71374491, 0xb5c0fbcf, 0xe9b5dba5, 0x3956c25b, 0x59f111f1, 0x923f82a4, 0xab1c5ed5,
    0xd807aa98, 0x12835b01, 0x243185be, 0x550c7dc3, 0x72be5d74, 0x80deb1fe, 0x9bdc06a7, 0xc19bf174,
    0xe49b69c1, 0xefbe4786, 0x0fc19dc6, 0x240ca1cc, 0x2de92c6f, 0x4a7484aa, 0x5cb0a9dc, 0x76f988da,
    0x983e5152, 0xa831c66d, 0xb00327c8, 0xbf597fc7, 0xc6e00bf3, 0xd5a79147, 0x06ca6351, 0x14292967,
    0x27b70a85, 0x2e1b2138, 0x4d2c6dfc, 0x53380d13, 0x650a7354, 0x766a0abb, 0x81c2c92e, 0x92722c85,
    0xa2bfe8a1, 0xa81a664b, 0xc24b8b70, 0xc76c51a3, 0xd192e819, 0xd6990624, 0xf40e3585, 0x106aa070,
    0x19a4c116, 0x1e376c08, 0x2748774c, 0x34b0bcb5, 0x391c0cb3, 0x4ed8aa4a, 0x5b9cca4f, 0x682e6ff3,
    0x748f82ee, 0x78a5636f, 0x84c87814, 0x8cc70208, 0x90befffa, 0xa4506ceb, 0xbef9a3f7, 0xc67178f2]

structure State where
  a : Nat
  b : Nat
  c : Nat
  d : Nat
  e : Nat
  f : Nat
  g : Nat
  h : Nat

/-- The fractional parts of the square roots of the first primes. -/
def start : State :=
  ⟨0x6a09e667, 0xbb67ae85, 0x3c6ef372, 0xa54ff53a, 0x510e527f, 0x9b05688c, 0x1f83d9ab, 0x5be0cd19⟩

/-! ## Padding -/

def utf8 (character : Char) : List Nat :=
  let code := character.toNat
  if code < 0x80 then [code]
  else if code < 0x800 then [0xC0 + code / 0x40, 0x80 + code % 0x40]
  else if code < 0x10000 then
    [0xE0 + code / 0x1000, 0x80 + code / 0x40 % 0x40, 0x80 + code % 0x40]
  else
    [0xF0 + code / 0x40000, 0x80 + code / 0x1000 % 0x40, 0x80 + code / 0x40 % 0x40,
      0x80 + code % 0x40]

def bigEndian (number : Nat) : Nat → List Nat
  | 0 => []
  | bytes + 1 => number / 0x100 ^ bytes % 0x100 :: bigEndian number bytes

def padded (bytes : List Nat) : List Nat :=
  bytes ++ 0x80 :: List.replicate ((119 - bytes.length % 64) % 64) 0 ++
    bigEndian (8 * bytes.length) 8

def wordsOf : List Nat → List Nat
  | a :: b :: c :: d :: rest => (((a * 0x100 + b) * 0x100 + c) * 0x100 + d) :: wordsOf rest
  | _ => []

/-! ## Blocks -/

/-- One more word in front of the words so far, the last one first. -/
def extend (words : List Nat) : List Nat :=
  let back (distance : Nat) : Nat := words.getD (distance - 1) 0
  let small0 := rotateRight 7 (back 15) ^^^ rotateRight 18 (back 15) ^^^ (back 15 >>> 3)
  let small1 := rotateRight 17 (back 2) ^^^ rotateRight 19 (back 2) ^^^ (back 2 >>> 10)
  add (add (back 16) small0) (add (back 7) small1) :: words

def extendBy : Nat → List Nat → List Nat
  | 0, words => words
  | count + 1, words => extendBy count (extend words)

def schedule (block : List Nat) : List Nat := (extendBy 48 block.reverse).reverse

def round (state : State) (constant word : Nat) : State :=
  let large1 := rotateRight 6 state.e ^^^ rotateRight 11 state.e ^^^ rotateRight 25 state.e
  let choice := (state.e &&& state.f) ^^^ (complement state.e &&& state.g)
  let large0 := rotateRight 2 state.a ^^^ rotateRight 13 state.a ^^^ rotateRight 22 state.a
  let majority := (state.a &&& state.b) ^^^ (state.a &&& state.c) ^^^ (state.b &&& state.c)
  let first := add (add (add state.h large1) (add choice constant)) word
  ⟨add first (add large0 majority), state.a, state.b, state.c, add state.d first, state.e,
    state.f, state.g⟩

def compress (state : State) (block : List Nat) : State :=
  let last := (roundConstants.zip (schedule block)).foldl
    (fun current (constant, word) => round current constant word) state
  ⟨add state.a last.a, add state.b last.b, add state.c last.c, add state.d last.d,
    add state.e last.e, add state.f last.f, add state.g last.g, add state.h last.h⟩

def blocks : Nat → List Nat → State → State
  | 0, _, state => state
  | count + 1, words, state => blocks count (words.drop 16) (compress state (words.take 16))

/-! ## The digest -/

def hexDigit (digit : Nat) : Char :=
  if digit < 10 then Char.ofNat (48 + digit) else Char.ofNat (87 + digit)

def hexWord (word : Nat) : List Char :=
  (bigEndian word 4).flatMap fun byte => [hexDigit (byte / 16), hexDigit (byte % 16)]

def hex (text : String) : String :=
  let words := wordsOf (padded (text.toList.flatMap utf8))
  let state := blocks (words.length / 16) words start
  String.ofList ([state.a, state.b, state.c, state.d, state.e, state.f, state.g,
    state.h].flatMap hexWord)

example : hex "abc" = "ba7816bf8f01cfea414140de5dae2223b00361a396177a9cb410ff61f20015ad" := by
  decide +kernel

end Sha256

end Barycenter
