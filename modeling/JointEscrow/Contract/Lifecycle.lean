import JointEscrow.Contract.Publication
import JointEscrow.Machine.Clock

/-!
# The life of a contract

A published contract is funded and then canceled or activated; an active one is closed by its
machine, spent by its settlement, and settled. Each change is a function from the record to a new
one with its event, and each new status is notarized before it is given back.
-/

namespace JointEscrow

/-- What a machine's identifier is the digest of. -/
structure MachineOrigin where
  cid : Digest
  activeAt : UInt64
  engine : String
  deriving DecidableEq, Repr

instance : JsonForm MachineOrigin where
  toJson o := .obj [("cid", toJson o.cid), ("active_at", toJson o.activeAt),
    ("engine", toJson o.engine)]
  ofJson? j := do
    let row ← Row.ofJson? ["cid", "active_at", "engine"] 3 j
    return ⟨← row.required "cid", ← row.required "active_at", ← row.required "engine"⟩

def MachineOrigin.id (o : MachineOrigin) : Digest := .ofValue o

/-- The winning template with one input per confirmed deposit. -/
structure Settlement where
  label : String
  template : List UInt8
  inputs : List Utxo
  deriving DecidableEq, Repr

def Settlement.txid (s : Settlement) : Except TermsError Digest := settlementId s.template s.inputs

namespace Contract

/-- Refuses an operation in any status but one. -/
def requireStatus (c : Contract) (expected : Status) (op : Operation) : Except ContractError Unit :=
  ensure (c.status = expected) (.status (.wrongStatus op expected c.status))

def fund (c : Contract) (deposits : List Deposit) : Except ContractError Change := do
  ensure (!(c.canceled || c.spent)) (.status (.unfundable c.status))
  let c := c.withTotals (c.tabulate deposits)
  return ⟨c, .funded c.cid c.fundValue c.fundPend c.txTotal⟩

def cancel (c : Contract) (key : KeyPair) (time : UInt64) : Except ContractError Change := do
  c.requireStatus .published .cancel
  ensure (!(c.activated || c.canceled)) (.status (.leftPublication .cancel))
  ensure (c.createdAt ≤ time && time ≤ c.deadline)
    (.status (.outsideCancelWindow time c.createdAt c.deadline))
  let next ← { c with
    canceled := true
    canceledAt := some time
    status := .canceled }.recordStatus key
  return ⟨next, .canceled next.cid time⟩

def machineConfig (c : Contract) : Except StatusFault MachineConfig :=
  match c.activeAt, c.expiresAt, c.engineVmid with
  | some activeAt, some expiresAt, some vmid =>
    .ok {
      vmid := vmid
      activeAt := activeAt
      expiresAt := expiresAt
      engine := c.engineLabel
      pathnames := pathLabels c.terms.paths
      programs := c.terms.programs
      schedule := c.terms.schedule }
  | _, _, _ => .error .notActive

/-- The conditions under which a contract may be activated at a time. -/
def checkActivation (c : Contract) (time : UInt64) : Except ContractError Unit := do
  c.requireStatus .published .activate
  ensure (!(c.canceled || c.activated)) (.status (.leftPublication .activate))
  ensure (c.engineLabel = JointEscrow.engineLabel)
    (.status (.otherEngine c.engineLabel JointEscrow.engineLabel))
  ensure (c.createdAt ≤ time && time ≤ c.deadline)
    (.status (.outsideFundingWindow time c.createdAt c.deadline))
  ensure (c.txTotal ≤ c.fundValue) (.status (.underfunded c.fundValue c.txTotal))

def activate (c : Contract) (key : KeyPair) (time : UInt64) :
    Except (Halt ContractError) (Change × Machine) := do
  (c.checkActivation time).mapError .cause
  let vmid := (MachineOrigin.mk c.cid time c.engineLabel).id
  let expiresAt ← addOrHalt time c.terms.duration
  let next := { c with
    activated := true
    activeAt := some time
    engineVmid := some vmid
    expiresAt := some expiresAt
    status := .active }
  let config ← next.machineConfig.mapError fun f => .cause (.status f)
  let machine ← (Machine.start config).mapError fun e => .cause (.machine e)
  let next ← (next.recordStatus key).mapError .cause
  return (⟨next, .activated next.cid vmid time expiresAt⟩, machine)

def close (c : Contract) (m : Machine) (key : KeyPair) : Except ContractError Change := do
  c.requireStatus .active .close
  ensure (c.engineVmid = some m.vmid) (.status (.foreignMachine m.vmid c.cid))
  match if m.closed then m.closedAt else none with
  | none => .error (.status .machineOpen)
  | some time =>
    let next ← { c with
      closed := true
      closedAt := some time
      engineHead := some m.head
      engineVout := m.output
      status := .closed }.recordStatus key
    return ⟨next, .closed next.cid m.head m.output time⟩

def settlement (c : Contract) (deposits : List Deposit) : Except ContractError Settlement := do
  ensure c.closed (.status .settlementOpen)
  match c.engineVout with
  | none => .error (.status .noOutput)
  | some label =>
    match c.template? label with
    | none => .error (.terms (.unknownPath label))
    | some t =>
      let template ← t.bytes.mapError .terms
      return ⟨label, template, (deposits.filter (·.confirmed)).map (·.utxo)⟩

def spend (c : Contract) (m : Machine) (deposits : List Deposit) (key : KeyPair) (time : UInt64) :
    Except ContractError Change := do
  c.requireStatus .closed .spend
  ensure (m.output.isSome && m.output = c.engineVout) (.status .otherOutput)
  let s ← c.settlement deposits
  let txid ← s.txid.mapError .terms
  let next ← { c with
    spent := true
    spentAt := some time
    spentTxid := some txid
    status := .spent }.recordStatus key
  return ⟨next, .spent next.cid txid time⟩

def settle (c : Contract) (key : KeyPair) (time : UInt64) : Except ContractError Change := do
  c.requireStatus .spent .settle
  let next ← { c with
    settled := true
    settledAt := some time
    status := .settled }.recordStatus key
  return ⟨next, .settled next.cid time⟩

end Contract

end JointEscrow
