import JointEscrow.Notary.Log
import JointEscrow.Payout.Output
import JointEscrow.Terms.Proposal

/-!
# The contract record

The published record of a contract, the statuses that it goes through, the deposits that fund it,
and the events that its changes give.
-/

namespace JointEscrow

/-- The statuses of a contract, in the order in which they can be reached. -/
inductive Status where
  | published
  | canceled
  | active
  | closed
  | spent
  | settled
  deriving DecidableEq, Repr

namespace Status

def name : Status → String
  | published => "published"
  | canceled => "canceled"
  | active => "active"
  | closed => "closed"
  | spent => "spent"
  | settled => "settled"

def all : List Status := [published, canceled, active, closed, spent, settled]

def ofName? (s : String) : Option Status := all.find? fun t => t.name = s

instance : JsonForm Status where
  toJson t := .str t.name
  ofJson? j := (enumName? j).bind ofName?

end Status

/-- A path's label with its template in hexadecimal digits. -/
structure SpendTemplate where
  label : String
  txhex : String
  deriving DecidableEq, Repr

instance : JsonForm SpendTemplate where
  toJson t := .arr [toJson t.label, toJson t.txhex]
  ofJson?
    | .arr [label, txhex] => do return ⟨← ofJson? label, ← ofJson? txhex⟩
    | _ => none

structure Deposit where
  utxo : Utxo
  confirmed : Bool
  deriving DecidableEq, Repr

instance : JsonForm Deposit where
  toJson d := .obj [("utxo", toJson d.utxo), ("confirmed", toJson d.confirmed)]
  ofJson? j := do
    let row ← Row.ofJson? ["utxo", "confirmed"] 2 j
    return ⟨← row.required "utxo", ← row.required "confirmed"⟩

structure Contract where
  activated : Bool
  activeAt : Option UInt64
  canceled : Bool
  canceledAt : Option UInt64
  cid : Digest
  closed : Bool
  closedAt : Option UInt64
  createdAt : UInt64
  deadline : UInt64
  engineHead : Option Digest
  engineLabel : String
  engineVmid : Option Digest
  engineVout : Option String
  expiresAt : Option UInt64
  feerate : UInt64
  fees : List Payment
  fundCount : UInt64
  fundPend : UInt64
  fundValue : UInt64
  outputs : List SpendTemplate
  propId : Digest
  serverPk : PublicKey
  settled : Bool
  settledAt : Option UInt64
  sigs : ProofLog Status
  spent : Bool
  spentAt : Option UInt64
  spentTxid : Option Digest
  status : Status
  subtotal : UInt64
  terms : Proposal
  txBsize : UInt64
  txFees : UInt64
  txTotal : UInt64
  txVsize : UInt64
  txinSize : UInt64
  vinCount : UInt64
  vinTxfee : UInt64
  deriving DecidableEq, Repr

namespace Contract

def fieldNames : List String :=
  ["activated", "active_at", "canceled", "canceled_at", "cid", "closed", "closed_at", "created_at",
    "deadline", "engine_head", "engine_label", "engine_vmid", "engine_vout", "expires_at",
    "feerate", "fees", "fund_count", "fund_pend", "fund_value", "outputs", "prop_id", "server_pk",
    "settled", "settled_at", "sigs", "spent", "spent_at", "spent_txid", "status", "subtotal",
    "terms", "tx_bsize", "tx_fees", "tx_total", "tx_vsize", "txin_size", "vin_count", "vin_txfee"]

instance : JsonForm Contract where
  toJson c := .obj [
    ("activated", toJson c.activated), ("active_at", toJson c.activeAt),
    ("canceled", toJson c.canceled), ("canceled_at", toJson c.canceledAt),
    ("cid", toJson c.cid), ("closed", toJson c.closed), ("closed_at", toJson c.closedAt),
    ("created_at", toJson c.createdAt), ("deadline", toJson c.deadline),
    ("engine_head", toJson c.engineHead), ("engine_label", toJson c.engineLabel),
    ("engine_vmid", toJson c.engineVmid), ("engine_vout", toJson c.engineVout),
    ("expires_at", toJson c.expiresAt), ("feerate", toJson c.feerate), ("fees", toJson c.fees),
    ("fund_count", toJson c.fundCount), ("fund_pend", toJson c.fundPend),
    ("fund_value", toJson c.fundValue), ("outputs", toJson c.outputs),
    ("prop_id", toJson c.propId), ("server_pk", toJson c.serverPk),
    ("settled", toJson c.settled), ("settled_at", toJson c.settledAt), ("sigs", toJson c.sigs),
    ("spent", toJson c.spent), ("spent_at", toJson c.spentAt), ("spent_txid", toJson c.spentTxid),
    ("status", toJson c.status), ("subtotal", toJson c.subtotal), ("terms", toJson c.terms),
    ("tx_bsize", toJson c.txBsize), ("tx_fees", toJson c.txFees), ("tx_total", toJson c.txTotal),
    ("tx_vsize", toJson c.txVsize), ("txin_size", toJson c.txinSize),
    ("vin_count", toJson c.vinCount), ("vin_txfee", toJson c.vinTxfee)]
  ofJson? j := do
    let row ← Row.ofJson? fieldNames 38 j
    return {
      activated := ← row.required "activated"
      activeAt := ← row.optional "active_at"
      canceled := ← row.required "canceled"
      canceledAt := ← row.optional "canceled_at"
      cid := ← row.required "cid"
      closed := ← row.required "closed"
      closedAt := ← row.optional "closed_at"
      createdAt := ← row.required "created_at"
      deadline := ← row.required "deadline"
      engineHead := ← row.optional "engine_head"
      engineLabel := ← row.required "engine_label"
      engineVmid := ← row.optional "engine_vmid"
      engineVout := ← row.optional "engine_vout"
      expiresAt := ← row.optional "expires_at"
      feerate := ← row.required "feerate"
      fees := ← row.required "fees"
      fundCount := ← row.required "fund_count"
      fundPend := ← row.required "fund_pend"
      fundValue := ← row.required "fund_value"
      outputs := ← row.required "outputs"
      propId := ← row.required "prop_id"
      serverPk := ← row.required "server_pk"
      settled := ← row.required "settled"
      settledAt := ← row.optional "settled_at"
      sigs := ← row.required "sigs"
      spent := ← row.required "spent"
      spentAt := ← row.optional "spent_at"
      spentTxid := ← row.optional "spent_txid"
      status := ← row.required "status"
      subtotal := ← row.required "subtotal"
      terms := ← row.required "terms"
      txBsize := ← row.required "tx_bsize"
      txFees := ← row.required "tx_fees"
      txTotal := ← row.required "tx_total"
      txVsize := ← row.required "tx_vsize"
      txinSize := ← row.required "txin_size"
      vinCount := ← row.required "vin_count"
      vinTxfee := ← row.required "vin_txfee" }

def template? (c : Contract) (label : String) : Option SpendTemplate :=
  c.outputs.find? fun t => t.label = label

end Contract

end JointEscrow
