import JointEscrow.Machine.State

/-!
# Status notes and proofs

A proof is the server's signature over a note about a change of status. The note itself is not
kept: whoever checks a proof rebuilds it from the contract record and compares digests. A proof is
written as 64 digits of the note's digest followed by 128 digits of the signature.
-/

namespace JointEscrow

inductive ProofTextError where
  | length (size : Nat)
  | digest (e : Digest.TextError)
  | signature (e : Hex.Error)
  deriving DecidableEq, Repr

def ProofTextError.message : ProofTextError → String
  | .length n => s!"expected 192 hex chars, got {n}"
  | .digest e => e.message
  | .signature e => (TermsError.invalidHex "signature" e).message

/-- Why a proof, a proof log or a receipt is not accepted. -/
inductive NotaryError where
  | malformedProof (e : ProofTextError)
  | wrongAuthority (expected actual : PublicKey)
  | digestMismatch (expected actual : Digest)
  | invalidSignature
  | rewriteHistory (status : String)
  deriving DecidableEq, Repr

def NotaryError.message : NotaryError → String
  | .malformedProof e => s!"malformed proof: {e.message}"
  | .wrongAuthority expected actual =>
    s!"proof signed by {actual.hex}, expected authority {expected.hex}"
  | .digestMismatch expected actual =>
    s!"proof digest {actual.short} does not match note {expected.short}"
  | .invalidSignature => "proof signature does not verify"
  | .rewriteHistory status =>
    s!"cannot rewrite proof for '{status}': it is not the latest entry"

/-- The kind of contract status notes. -/
def statusNoteKind : UInt32 := 31000

structure Note where
  content : String
  createdAt : UInt64
  kind : UInt32
  pubkey : PublicKey
  tags : List (String × String)
  deriving DecidableEq, Repr

namespace Note

instance : JsonForm Note where
  toJson n := .obj [("content", toJson n.content), ("created_at", toJson n.createdAt),
    ("kind", toJson n.kind), ("pubkey", toJson n.pubkey), ("tags", toJson n.tags)]
  ofJson? j := do
    let row ← Row.ofJson? ["content", "created_at", "kind", "pubkey", "tags"] 5 j
    return ⟨← row.required "content", ← row.required "created_at", ← row.required "kind",
      ← row.required "pubkey", ← row.required "tags"⟩

/-- The note about a contract's status, indexed by the contract's identifier. -/
def ofStatus (pubkey : PublicKey) (cid : Digest) (content : String) (createdAt : UInt64) : Note :=
  ⟨content, createdAt, statusNoteKind, pubkey, [("i", cid.hex)]⟩

/-- What the digest of a note is taken of: a list that starts with zero. -/
structure Serial where
  note : Note
  deriving DecidableEq, Repr

instance : JsonForm Serial where
  toJson s := .arr [.num 0, toJson s.note.pubkey, toJson s.note.createdAt, toJson s.note.kind,
    toJson s.note.tags, toJson s.note.content]
  ofJson?
    | .arr [.num n, pubkey, createdAt, kind, tags, content] => do
      if n = 0 then
        return ⟨← ofJson? content, ← ofJson? createdAt, ← ofJson? kind, ← ofJson? pubkey,
          ← ofJson? tags⟩
      else none
    | _ => none

def id (n : Note) : Digest := .ofValue (Serial.mk n)

end Note

structure ProofEntry (σ : Type) where
  status : σ
  proof : String
  deriving DecidableEq, Repr

instance {σ : Type} [JsonForm σ] : JsonForm (ProofEntry σ) where
  toJson e := .arr [toJson e.status, toJson e.proof]
  ofJson?
    | .arr [status, proof] => do return ⟨← ofJson? status, ← ofJson? proof⟩
    | _ => none

/-- The text of a proof. -/
def proofText (digest : Digest) (signature : Signature) : String := digest.hex ++ signature.hex

/-- Signs a note and marks the proof with a status. -/
def notarize {σ : Type} (status : σ) (note : Note) (key : KeyPair) : ProofEntry σ :=
  ⟨status, proofText note.id (key.sign note.id)⟩

/-- The digest and the signature that the text of a proof consists of. -/
def parseProof (proof : String) : Except NotaryError (Digest × Signature) := do
  let size := (utf8 proof).length
  let cs := proof.toList
  if size ≠ 192 ∨ cs.any (fun c => 128 ≤ c.toNat) then
    .error (.malformedProof (.length size))
  else
    let digest ← (Digest.ofHex (String.ofList (cs.take 64))).mapError
      fun e => .malformedProof (.digest e)
    let signature ← (Signature.ofHex (String.ofList (cs.drop 64))).mapError
      fun e => .malformedProof (.signature e)
    return (digest, signature)

/-- Checks that the proof is the authority's signature over the note. -/
def verifyProof (note : Note) (proof : String) (authority : PublicKey) :
    Except NotaryError Unit := do
  if note.pubkey ≠ authority then .error (.wrongAuthority authority note.pubkey)
  else
    let (digest, signature) ← parseProof proof
    if digest ≠ note.id then .error (.digestMismatch note.id digest)
    else if authority.verifies digest signature then .ok ()
    else .error .invalidSignature

end JointEscrow
