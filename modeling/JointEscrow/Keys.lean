import JointEscrow.Curve.Signing
import JointEscrow.Digest

/-!
# Keys and endorsements

A key pair is its seed; the public key, and a signature over a digest, follow from it. An
endorsement is a public key with its signature over an identifier.
-/

namespace JointEscrow

/-- A public key. Any 32 bytes are one, but a key that is no point of the curve verifies nothing. -/
structure PublicKey where
  bytes : Vector UInt8 32
  deriving DecidableEq, Repr

structure Signature where
  bytes : Vector UInt8 64
  deriving DecidableEq, Repr

/-- A key that can sign, known by its seed. -/
structure KeyPair where
  seed : Vector UInt8 32
  deriving DecidableEq, Repr

/-- The first `n` bytes of a list, filled up with zeros. -/
def takeBytes (n : Nat) (bytes : List UInt8) : Vector UInt8 n :=
  let a := bytes.toArray
  Vector.ofFn fun i : Fin n => a.getD i 0

namespace PublicKey

/-- Keys are ordered by their bytes. -/
instance : LT PublicKey := ⟨fun a b => a.bytes.toList < b.bytes.toList⟩

instance : DecidableLT PublicKey :=
  fun a b => inferInstanceAs (Decidable (a.bytes.toList < b.bytes.toList))

instance : KeyOrder PublicKey where
  irrefl a := List.lt_irrefl a.bytes.toList
  trans _ _ _ hab hbc := List.lt_trans (α := UInt8) hab hbc
  connected a b hab hba := by
    have h : a.bytes.toList = b.bytes.toList := List.le_antisymm (α := UInt8) hba hab
    cases a
    cases b
    simpa [Vector.toList_inj] using h

def hex (k : PublicKey) : String := Hex.encode k.bytes.toList

/-- The first twelve digits with the kind of thing it is. -/
def labelled (k : PublicKey) : String := s!"PublicKey({Hex.encode (k.bytes.toList.take 6)})"

def ofHex (s : String) : Except Hex.Error PublicKey := (Hex.decodeExactly 32 s).map .mk

instance : JsonForm PublicKey where
  toJson k := .str k.hex
  ofJson?
    | .str s => (ofHex s).toOption
    | _ => none

end PublicKey

namespace Signature

def hex (s : Signature) : String := Hex.encode s.bytes.toList

/-- The first twelve digits with the kind of thing it is. -/
def labelled (s : Signature) : String := s!"Signature({Hex.encode (s.bytes.toList.take 6)})"

def ofHex (s : String) : Except Hex.Error Signature := (Hex.decodeExactly 64 s).map .mk

instance : JsonForm Signature where
  toJson s := .str s.hex
  ofJson?
    | .str s => (ofHex s).toOption
    | _ => none

end Signature

/-- Whether the signature is one of the digest under the key. -/
def PublicKey.verifies (key : PublicKey) (digest : Digest) (signature : Signature) : Bool :=
  Ed25519.verify key.bytes.toList digest.bytes.toList signature.bytes.toList

namespace KeyPair

def publicKey (k : KeyPair) : PublicKey := ⟨takeBytes 32 (Ed25519.publicBytes k.seed.toList)⟩

def sign (k : KeyPair) (digest : Digest) : Signature :=
  ⟨takeBytes 64 (Ed25519.sign k.seed.toList digest.bytes.toList)⟩

/-- The form shown in logs, which hides the seed. -/
def labelled (k : KeyPair) : String := s!"KeyPair \x7b public_key: {k.publicKey.labelled}, .. \x7d"

end KeyPair

/-- A key with its signature over an identifier. -/
structure Endorsement where
  pubkey : PublicKey
  signature : Signature
  deriving DecidableEq, Repr

namespace Endorsement

def create (key : KeyPair) (id : Digest) : Endorsement := ⟨key.publicKey, key.sign id⟩

def verifies (e : Endorsement) (id : Digest) : Bool := e.pubkey.verifies id e.signature

instance : JsonForm Endorsement where
  toJson e := .obj [("pubkey", toJson e.pubkey), ("signature", toJson e.signature)]
  ofJson? j := do
    let row ← Row.ofJson? ["pubkey", "signature"] 2 j
    return ⟨← row.required "pubkey", ← row.required "signature"⟩

end Endorsement

end JointEscrow
