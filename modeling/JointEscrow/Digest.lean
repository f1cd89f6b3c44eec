import JointEscrow.Hash.Blake3
import JointEscrow.Json.Form
import JointEscrow.Json.Printer

/-!
# Digests

Every identifier is a 32-byte digest: of a byte string, of the compact JSON text of a record, or of
two digests one after the other, which is how a log commits to its entries.
-/

namespace JointEscrow

structure Digest where
  bytes : Vector UInt8 32
  deriving DecidableEq, Repr

namespace Digest

def ofBytes (bytes : List UInt8) : Digest := ⟨Blake3.hash bytes⟩

/-- The bytes that stand for a value wherever its digest is taken. -/
def preimage {α : Type} [JsonForm α] (a : α) : List UInt8 := utf8 (toJson a).compact

def ofValue {α : Type} [JsonForm α] (a : α) : Digest := ofBytes (preimage a)

def link (prior next : Digest) : List UInt8 := prior.bytes.toList ++ next.bytes.toList

def chain (prior next : Digest) : Digest := ofBytes (link prior next)

/-- The digest of zeros, a mark for "none". -/
def zero : Digest := ⟨Vector.replicate 32 0⟩

def hex (d : Digest) : String := Hex.encode d.bytes.toList

/-- The first twelve digits, as messages show it. -/
def short (d : Digest) : String := Hex.encode (d.bytes.toList.take 6)

/-- The short form with the kind of thing it is. -/
def labelled (d : Digest) : String := s!"ContentHash({d.short})"

inductive TextError where
  | length (size : Nat)
  | digits
  deriving DecidableEq, Repr

def TextError.message : TextError → String
  | .length n => s!"invalid hex length: {n} (expected 64)"
  | .digits => "invalid hex character"

/-- The digest that a text of 64 digits writes. The length is counted in UTF-8 bytes. -/
def ofHex (s : String) : Except TextError Digest :=
  if (utf8 s).length ≠ 64 then .error (.length (utf8 s).length)
  else match Hex.decodeExactly 32 s with
    | .ok bytes => .ok ⟨bytes⟩
    | .error _ => .error .digits

instance : JsonForm Digest where
  toJson d := .str d.hex
  ofJson?
    | .str s => (ofHex s).toOption
    | _ => none

end Digest

end JointEscrow
