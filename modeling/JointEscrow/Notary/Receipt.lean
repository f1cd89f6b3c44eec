import JointEscrow.Notary.Proof

/-!
# Receipts

The server's acknowledgement that a machine reached a head at a step. Two receipts with different
heads for one step show that the server told two histories.
-/

namespace JointEscrow

structure Checkpoint where
  vmid : Digest
  head : Digest
  step : UInt64
  updatedAt : UInt64
  deriving DecidableEq, Repr

namespace Checkpoint

instance : JsonForm Checkpoint where
  toJson c := .obj [("vmid", toJson c.vmid), ("head", toJson c.head), ("step", toJson c.step),
    ("updated_at", toJson c.updatedAt)]
  ofJson? j := do
    let row ← Row.ofJson? ["vmid", "head", "step", "updated_at"] 4 j
    return ⟨← row.required "vmid", ← row.required "head", ← row.required "step",
      ← row.required "updated_at"⟩

def digest (c : Checkpoint) : Digest := .ofValue c

end Checkpoint

def Machine.checkpoint (m : Machine) : Checkpoint := ⟨m.vmid, m.head, m.step, m.updatedAt⟩

structure Receipt where
  vmid : Digest
  head : Digest
  step : UInt64
  updatedAt : UInt64
  serverPk : PublicKey
  sig : Signature
  deriving DecidableEq, Repr

namespace Receipt

instance : JsonForm Receipt where
  toJson r := .obj [("vmid", toJson r.vmid), ("head", toJson r.head), ("step", toJson r.step),
    ("updated_at", toJson r.updatedAt), ("server_pk", toJson r.serverPk), ("sig", toJson r.sig)]
  ofJson? j := do
    let row ← Row.ofJson? ["vmid", "head", "step", "updated_at", "server_pk", "sig"] 6 j
    return ⟨← row.required "vmid", ← row.required "head", ← row.required "step",
      ← row.required "updated_at", ← row.required "server_pk", ← row.required "sig"⟩

def checkpoint (r : Receipt) : Checkpoint := ⟨r.vmid, r.head, r.step, r.updatedAt⟩

def digest (r : Receipt) : Digest := r.checkpoint.digest

def create (m : Machine) (key : KeyPair) : Receipt :=
  ⟨m.vmid, m.head, m.step, m.updatedAt, key.publicKey, key.sign m.checkpoint.digest⟩

/-- Checks the signature and, if a machine is given, that the receipt is about its state. -/
def verify (r : Receipt) (authority : PublicKey) (machine : Option Machine) :
    Except NotaryError Unit :=
  if r.serverPk ≠ authority then .error (.wrongAuthority authority r.serverPk)
  else if !authority.verifies r.digest r.sig then .error .invalidSignature
  else match machine with
    | none => .ok ()
    | some m =>
      if m.checkpoint.digest = r.digest then .ok ()
      else .error (.digestMismatch m.checkpoint.digest r.digest)

end Receipt

end JointEscrow
