import JointEscrow.Bytes.Word
import JointEscrow.Curve.Edwards
import JointEscrow.Hash.Sha512

/-!
# Signatures over the Edwards curve

Ed25519: a 32-byte seed gives a secret multiple of the base point and a nonce key; a signature is
the code of a nonce point followed by a number below the group order. A signature verifies when the
point that its equation gives has exactly the code it starts with.
-/

namespace JointEscrow.Ed25519

open Edwards

/-- The bytes of a point's code, 32 of them. -/
def pointBytes (p : Point) : List UInt8 := littleEndian 32 p.code

/-- The secret number of a seed: the low half of its hash with the low three bits and the top bit
cleared and the second highest bit set. -/
def secret (seed : List UInt8) : Nat :=
  let n := ofLittleEndian ((Sha512.hash seed).take 32)
  n % Nat.pow 2 254 / 8 * 8 + Nat.pow 2 254

def publicBytes (seed : List UInt8) : List UInt8 := pointBytes (base.multiple (secret seed))

/-- A hash as a number below the group order. -/
def reduce (bytes : List UInt8) : Nat := ofLittleEndian (Sha512.hash bytes) % order

def sign (seed message : List UInt8) : List UInt8 :=
  let a := secret seed
  let key := publicBytes seed
  let r := reduce ((Sha512.hash seed).drop 32 ++ message)
  let nonce := pointBytes (base.multiple r)
  let k := reduce (nonce ++ key ++ message)
  nonce ++ littleEndian 32 ((r + k * a) % order)

/-- Whether the signature is one of the message under the key. A key that is no point and a second
half that is not below the group order never verify. -/
def verify (key message signature : List UInt8) : Bool :=
  let nonce := signature.take 32
  let s := ofLittleEndian (signature.drop 32)
  match Point.ofCode? (ofLittleEndian key) with
  | none => false
  | some a =>
    if s < order then
      let k := reduce (nonce ++ key ++ message)
      pointBytes ((base.multiple s).add (a.neg.multiple k)) == nonce
    else false

end JointEscrow.Ed25519
