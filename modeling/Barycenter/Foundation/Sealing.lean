import Barycenter.Foundation.Sha256

/-!
# Authenticated encryption

A cipher seals a text under a key, a nonce and a text it is about, into a body
and a tag of fixed length.  All that is asked of it is that what was sealed is
opened by the same three.  A box is the tag in front of the body; a parcel has
the nonce in front of that.
-/

namespace Barycenter

abbrev Bytes := List Nat

abbrev Block (size : Nat) := { bytes : Bytes // bytes.length = size }

def utf8Of (text : String) : Bytes := text.toList.flatMap Sha256.utf8

structure Cipher (keySize nonceSize tagSize : Nat) where
  encrypt : Block keySize → Block nonceSize → Bytes → Bytes → Block tagSize × Bytes
  decrypt : Block keySize → Bytes → Bytes → Bytes → Bytes → Option Bytes
  decrypt_encrypt : ∀ key nonce about plain,
    decrypt key nonce.val about (encrypt key nonce about plain).1.val (encrypt key nonce about plain).2 =
      some plain

namespace Cipher

variable {keySize nonceSize tagSize : Nat} (cipher : Cipher keySize nonceSize tagSize)

def box (key : Block keySize) (nonce : Block nonceSize) (about plain : Bytes) : Bytes :=
  let (tag, body) := cipher.encrypt key nonce about plain
  tag.val ++ body

def unbox (key : Block keySize) (nonce about boxed : Bytes) : Option Bytes :=
  cipher.decrypt key nonce about (boxed.take tagSize) (boxed.drop tagSize)

def parcel (key : Block keySize) (nonce : Block nonceSize) (about plain : Bytes) : Bytes :=
  nonce.val ++ cipher.box key nonce about plain

def unparcel (key : Block keySize) (about parcelled : Bytes) : Option Bytes :=
  cipher.unbox key (parcelled.take nonceSize) about (parcelled.drop nonceSize)

@[simp] theorem unbox_box (key : Block keySize) (nonce : Block nonceSize) (about plain : Bytes) :
    cipher.unbox key nonce.val about (cipher.box key nonce about plain) = some plain := by
  have tag := (cipher.encrypt key nonce about plain).1.property
  rw [unbox, box, List.take_left' tag, List.drop_left' tag]
  exact cipher.decrypt_encrypt key nonce about plain

@[simp] theorem unparcel_parcel (key : Block keySize) (nonce : Block nonceSize)
    (about plain : Bytes) :
    cipher.unparcel key about (cipher.parcel key nonce about plain) = some plain := by
  rw [unparcel, parcel, List.take_left' nonce.property, List.drop_left' nonce.property]
  exact cipher.unbox_box key nonce about plain

/-- A cipher that opens exactly what it sealed, and hides nothing. -/
def transparent (keySize nonceSize tagSize : Nat) : Cipher keySize nonceSize tagSize where
  encrypt key nonce about plain :=
    (⟨List.replicate tagSize 0, List.length_replicate⟩, key.val ++ nonce.val ++ about ++ plain)
  decrypt key nonce about tag body :=
    let head := key.val ++ nonce ++ about
    if tag = List.replicate tagSize 0 ∧ body.take head.length = head then
      some (body.drop head.length)
    else none
  decrypt_encrypt key nonce about plain := by
    simp only [List.take_left', List.drop_left', and_self, if_true]

end Cipher

end Barycenter
