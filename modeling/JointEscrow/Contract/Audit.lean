import JointEscrow.Contract.Lifecycle
import JointEscrow.Machine.Log

/-!
# The settlement audit

Each check computes derived values anew from public data and compares them with what the record
claims. `verifySettlement` goes through all stages in lifecycle order; the first mismatch fails it.
-/

namespace JointEscrow

namespace Contract

/-- Refuses a stage of the audit with what differs when a condition fails. -/
def audit (stage : Stage) (ok : Bool) (found : Mismatch) : Except ContractError Unit :=
  ensure ok (.verification stage found)

/-- The templates have distinct declared labels; `seen` are the labels before these. -/
def auditLabels (labels seen : List String) : List SpendTemplate → Except ContractError Unit
  | [] => .ok ()
  | t :: r => do
    audit .contractData (t.label ∉ seen) (.duplicateTemplate t.label)
    audit .contractData (t.label ∈ labels) (.undeclaredTemplate t.label)
    auditLabels labels (t.label :: seen) r

/-- The identifiers and templates agree with each other. -/
def verifyData (c : Contract) : Except ContractError Unit := do
  let id := c.terms.id
  audit .contractData (id = c.propId) (.termsId id c.propId)
  let cid ← (contractId c.outputs id c.createdAt).mapError .terms
  audit .contractData (cid = c.cid) (.cid cid c.cid)
  let labels := pathLabels c.terms.paths
  auditLabels labels [] c.outputs
  audit .contractData (c.outputs.length = labels.length)
    (.templateCount c.outputs.length labels.length)

/-- The templates of the proposal are the published ones. -/
def verifyPublishing (c : Contract) (p : Proposal) : Except ContractError Unit := do
  let outputs ← (p.spendTemplates c.fees).mapError .terms
  let id := p.id
  audit .publishing (id = c.propId) (.proposalId id c.propId)
  let cid ← (contractId outputs id c.createdAt).mapError .terms
  audit .publishing (cid = c.cid) (.cid cid c.cid)
  outputs.forM fun t => do
    audit .publishing (c.template? t.label).isSome (.missingTemplate t.label)
    audit .publishing (c.template? t.label = some t) (.otherTemplate t.label)

/-- The recorded figures are those of the deposits. -/
def verifyFunding (c : Contract) (deposits : List Deposit) : Except ContractError Unit := do
  let t := c.tabulate deposits
  let figures : List (String × UInt64 × UInt64) :=
    [("fund count", c.fundCount, t.fundCount), ("pending value", c.fundPend, t.fundPend),
      ("funded value", c.fundValue, t.fundValue), ("input count", c.vinCount, t.vinCount),
      ("tx fees", c.txFees, t.txFees), ("tx total", c.txTotal, t.txTotal),
      ("tx size", c.txVsize, t.txVsize)]
  figures.forM fun (name, recorded, computed) =>
    audit .funding (recorded = computed) (.figure name computed recorded)

/-- The machine is the one that the activation of the contract gives. -/
def verifyActivation (c : Contract) (m : Machine) : Except (Halt ContractError) Unit := do
  (audit .activation (!c.canceled) .canceled).mapError .cause
  (audit .activation c.activated .notActive).mapError .cause
  match c.activeAt, c.engineVmid with
  | some activeAt, some vmid => do
    (audit .activation (activeAt = m.activeAt) (.activeAt activeAt m.activeAt)).mapError .cause
    (audit .activation (vmid = m.vmid) (.machineVmid vmid m.vmid)).mapError .cause
    let derived := (MachineOrigin.mk c.cid activeAt c.engineLabel).id
    (audit .activation (vmid = derived) (.underivedVmid vmid)).mapError .cause
    let expiresAt ← addOrHalt activeAt c.terms.duration
    (audit .activation (c.expiresAt = some expiresAt) (.expiry expiresAt c.expiresAt)).mapError
      .cause
    (audit .activation (m.expiresAt = expiresAt) (.machineExpiry m.expiresAt expiresAt)).mapError
      .cause
  | _, _ => .error (.cause (.verification .activation .noActivation))

/-- The cause of a halt seen as a mismatch of the log. -/
def haltOfLog : Halt MachineError → Halt ContractError
  | .overflow => .overflow
  | .cause e => .cause (.verification .close (.log e))

/-- The contract was closed with the result of the machine, whose log holds together. -/
def verifyClose (c : Contract) (m : Machine) : Except (Halt ContractError) Unit := do
  (audit .close m.closed .machineOpen).mapError .cause
  (audit .close c.closed .contractOpen).mapError .cause
  (audit .close (m.closedAt = c.closedAt) (.closedAt c.closedAt m.closedAt)).mapError .cause
  (audit .close (some m.head = c.engineHead) (.head c.engineHead m.head)).mapError .cause
  (audit .close (m.output = c.engineVout) (.output c.engineVout m.output)).mapError .cause
  let config ← c.machineConfig.mapError fun f => .cause (.verification .close (.config f))
  (Machine.verifyFromGenesis config m).mapError haltOfLog

/-- The contract was spent by the settlement of the machine's output with the deposits. -/
def verifySpending (c : Contract) (deposits : List Deposit) (m : Machine) :
    Except ContractError Unit := do
  audit .spending c.closed .contractOpen
  audit .spending c.spent .notSpent
  audit .spending m.output.isSome .noOutput
  audit .spending (m.output = c.engineVout) .otherOutput
  let s ← c.settlement deposits
  let txid ← s.txid.mapError .terms
  audit .spending (some txid = c.spentTxid) (.txid txid c.spentTxid)

/-- The statuses that the record's flags say have been reached. -/
def reachedStatuses (c : Contract) : List Status :=
  ([(true, .published), (c.canceled, .canceled), (c.activated, .active), (c.closed, .closed),
    (c.spent, .spent), (c.settled, .settled)] : List (Bool × Status)).filterMap
    fun (reached, s) => if reached then some s else none

/-- Every status that was reached has a proof, and every proof is the authority's. -/
def verifySignatures (c : Contract) (authority : PublicKey) : Except ContractError Unit := do
  c.reachedStatuses.forM fun s =>
    audit .signatures (c.sigs.any fun e => e.status = s) (.missingProof s)
  c.sigs.forM (c.verifyStatusProof authority)

def verifySettlement (c : Contract) (deposits : List Deposit) (p : Proposal) (m : Machine)
    (authority : PublicKey) : Except (Halt ContractError) Unit := do
  c.verifyData.mapError .cause
  (c.verifyPublishing p).mapError .cause
  (c.verifyFunding deposits).mapError .cause
  c.verifyActivation m
  c.verifyClose m
  (c.verifySpending deposits m).mapError .cause
  (c.verifySignatures authority).mapError .cause

end Contract

end JointEscrow
