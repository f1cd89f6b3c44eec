import JointEscrow.Contract.Error

/-!
# Notes about a contract's status

The note for each status is rebuilt from the record's own fields, so whoever holds the record can
recompute the digest that each proof signs.
-/

namespace JointEscrow

namespace Contract

/-- A time that a status is only reached with. -/
def reachedAt (status : Status) (field : String) :
    Option UInt64 → Except ContractError UInt64
  | some t => .ok t
  | none => .error (.status (.undescribed status field))

/-- The fields that describe a status, and the time it was reached. -/
def describe (c : Contract) (status : Status) : Except ContractError (Json × UInt64) :=
  match status with
  | .published => .ok (.obj [("cid", toJson c.cid), ("prop_id", toJson c.propId)], c.createdAt)
  | .canceled => do
    let t ← reachedAt status "canceled_at" c.canceledAt
    return (.obj [("canceled_at", toJson t)], t)
  | .active => do
    let t ← reachedAt status "active_at" c.activeAt
    return (.obj [("active_at", toJson t), ("expires_at", toJson c.expiresAt),
      ("vmid", toJson c.engineVmid)], t)
  | .closed => do
    let t ← reachedAt status "closed_at" c.closedAt
    return (.obj [("closed_at", toJson t), ("head", toJson c.engineHead),
      ("vout", toJson c.engineVout)], t)
  | .spent => do
    let t ← reachedAt status "spent_at" c.spentAt
    return (.obj [("spent_at", toJson t), ("txid", toJson c.spentTxid)], t)
  | .settled => do
    let t ← reachedAt status "settled_at" c.settledAt
    return (.obj [("settled_at", toJson t)], t)

def noteContent (c : Contract) (status : Status) : Except ContractError (String × UInt64) := do
  let (fields, t) ← c.describe status
  return (fields.compact, t)

def statusNote (c : Contract) (status : Status) : Except ContractError Note := do
  let (content, t) ← c.noteContent status
  return .ofStatus c.serverPk c.cid content t

def notarizeStatus (c : Contract) (key : KeyPair) (status : Status) :
    Except ContractError (ProofEntry Status) := do
  return notarize status (← c.statusNote status) key

/-- The contract with a proof of its present status; only the contract's authority gives one. -/
def recordStatus (c : Contract) (key : KeyPair) : Except ContractError Contract := do
  if key.publicKey ≠ c.serverPk then
    .error (.unauthorized (.notAuthority key.publicKey c.serverPk))
  else
    let proof ← c.notarizeStatus key c.status
    let sigs ← (ProofLog.update Status.name c.sigs proof).mapError .notary
    return { c with sigs := sigs }

/-- Checks a proof of a status against the note that the record gives for it. -/
def verifyStatusProof (c : Contract) (authority : PublicKey) (e : ProofEntry Status) :
    Except ContractError Unit := do
  let note ← c.statusNote e.status
  (verifyProof note e.proof authority).mapError
    fun err => .verification .signatures (.proof e.status err)

end Contract

end JointEscrow
