import JointEscrow.Contract.Record
import JointEscrow.Number.Amount

/-!
# Funding figures

What a contract's deposits and fees add up to, in whole numbers that stay at the largest amount, so
that anyone can recompute them digit by digit.
-/

namespace JointEscrow

structure FundTotals where
  fundCount : UInt64
  fundPend : UInt64
  fundValue : UInt64
  vinCount : UInt64
  txFees : UInt64
  txVsize : UInt64
  txTotal : UInt64
  satsVbyte : UInt64
  deriving DecidableEq, Repr

instance : JsonForm FundTotals where
  toJson t := .obj [("fund_count", toJson t.fundCount), ("fund_pend", toJson t.fundPend),
    ("fund_value", toJson t.fundValue), ("vin_count", toJson t.vinCount),
    ("tx_fees", toJson t.txFees), ("tx_vsize", toJson t.txVsize), ("tx_total", toJson t.txTotal),
    ("sats_vbyte", toJson t.satsVbyte)]
  ofJson? j := do
    let row ← Row.ofJson? ["fund_count", "fund_pend", "fund_value", "vin_count", "tx_fees",
      "tx_vsize", "tx_total", "sats_vbyte"] 8 j
    return ⟨← row.required "fund_count", ← row.required "fund_pend", ← row.required "fund_value",
      ← row.required "vin_count", ← row.required "tx_fees", ← row.required "tx_vsize",
      ← row.required "tx_total", ← row.required "sats_vbyte"⟩

/-- The size in bytes of the longest template, zero when there is none. -/
def longestTemplate (outputs : List SpendTemplate) : UInt64 :=
  UInt64.ofNat ((outputs.map fun t => (utf8 t.txhex).length / 2).foldl max 0)

def depositValues (confirmed : Bool) (deposits : List Deposit) : List UInt64 :=
  (deposits.filter fun d => d.confirmed = confirmed).map fun d => d.utxo.value

namespace Contract

def tabulate (c : Contract) (deposits : List Deposit) : FundTotals :=
  let baseSize := longestTemplate c.outputs
  let baseFee := mulClamped baseSize c.feerate
  let vinCount := UInt64.ofNat (depositValues true deposits).length
  let txFees := addClamped baseFee (mulClamped vinCount c.vinTxfee)
  let txVsize := addClamped baseSize (mulClamped vinCount c.txinSize)
  { fundCount := UInt64.ofNat deposits.length
    fundPend := sumClamped (depositValues false deposits)
    fundValue := sumClamped (depositValues true deposits)
    vinCount := vinCount
    txFees := txFees
    txVsize := txVsize
    txTotal := addClamped c.subtotal txFees
    satsVbyte := txFees / txVsize }

def withTotals (c : Contract) (t : FundTotals) : Contract :=
  { c with
    fundCount := t.fundCount
    fundPend := t.fundPend
    fundValue := t.fundValue
    vinCount := t.vinCount
    txFees := t.txFees
    txVsize := t.txVsize
    txTotal := t.txTotal }

end Contract

/-- The time until which a contract can be funded: the proposal's own time, or a window from
publication that the proposal or else the server gives. -/
def Proposal.fundingDeadline (p : Proposal) (published defaultWindow : UInt64) : UInt64 :=
  match p.effective with
  | some time => time
  | none => addClamped published (p.deadline.getD defaultWindow)

end JointEscrow
