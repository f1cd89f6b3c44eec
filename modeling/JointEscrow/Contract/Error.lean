import JointEscrow.Contract.Record
import JointEscrow.Machine.Error

/-!
# What is refused about a contract

The causes for which an operation on a contract or an audit of it fails, with their wording. A cause
is one of the terms, of authority, of the contract's present status, of the notary, of the machine,
or a mismatch found by the audit.
-/

namespace JointEscrow

inductive Operation where
  | cancel
  | activate
  | close
  | spend
  | settle
  deriving DecidableEq, Repr

def Operation.name : Operation → String
  | .cancel => "cancel contract"
  | .activate => "activate contract"
  | .close => "close contract"
  | .spend => "spend contract"
  | .settle => "settle contract"

/-- Why the present status of a contract does not admit an operation. -/
inductive StatusFault where
  | undescribed (status : Status) (field : String)
  | unfundable (status : Status)
  | wrongStatus (op : Operation) (expected actual : Status)
  | leftPublication (op : Operation)
  | outsideCancelWindow (at_ low high : UInt64)
  | otherEngine (wanted label : String)
  | outsideFundingWindow (at_ low high : UInt64)
  | underfunded (funds required : UInt64)
  | notActive
  | foreignMachine (vmid cid : Digest)
  | machineOpen
  | settlementOpen
  | noOutput
  | otherOutput
  deriving DecidableEq, Repr

def StatusFault.message : StatusFault → String
  | .undescribed s f => s!"cannot describe contract: '{s.name}' has no {f} yet"
  | .unfundable s => s!"cannot fund contract: contract is {s.name}"
  | .wrongStatus op e a => s!"cannot {op.name}: expected status '{e.name}', got '{a.name}'"
  | .leftPublication op => s!"cannot {op.name}: contract already left publication"
  | .outsideCancelWindow t low high =>
    s!"cannot cancel contract: cancel at {t} outside window [{low}, {high}]"
  | .otherEngine wanted label =>
    s!"cannot activate contract: contract runs on '{wanted}', not '{label}'"
  | .outsideFundingWindow t low high =>
    s!"cannot activate contract: activation at {t} outside funding window [{low}, {high}]"
  | .underfunded funds required =>
    s!"cannot activate contract: confirmed funds {funds} below required {required}"
  | .notActive => "cannot build machine config: contract is not active"
  | .foreignMachine vmid cid =>
    s!"cannot close contract: machine {vmid.short} does not belong to contract {cid.short}"
  | .machineOpen => "cannot close contract: machine is still open"
  | .settlementOpen => "cannot build settlement: contract is not closed"
  | .noOutput => "cannot build settlement: machine closed without an output"
  | .otherOutput =>
    "cannot spend contract: machine output is missing or differs from the closed contract"

/-- Why an operation on a contract is not authorized. -/
inductive ContractAuthorityFault where
  | badEndorsement (key : PublicKey)
  | missingMember (key : PublicKey)
  | notAuthority (key authority : PublicKey)
  deriving DecidableEq, Repr

def ContractAuthorityFault.message : ContractAuthorityFault → String
  | .badEndorsement k => s!"endorsement from {k.hex} does not verify"
  | .missingMember k => s!"member {k.hex} has not endorsed the proposal"
  | .notAuthority k a => s!"key {k.hex} is not the contract authority {a.hex}"

inductive Stage where
  | contractData
  | publishing
  | funding
  | activation
  | close
  | spending
  | signatures
  deriving DecidableEq, Repr

def Stage.name : Stage → String
  | .contractData => "contract data"
  | .publishing => "publishing"
  | .funding => "funding"
  | .activation => "activation"
  | .close => "close"
  | .spending => "spending"
  | .signatures => "signatures"

/-- What an audit finds to differ. -/
inductive Mismatch where
  | termsId (computed recorded : Digest)
  | proposalId (computed recorded : Digest)
  | cid (computed recorded : Digest)
  | duplicateTemplate (label : String)
  | undeclaredTemplate (label : String)
  | templateCount (templates paths : Nat)
  | missingTemplate (label : String)
  | otherTemplate (label : String)
  | figure (name : String) (computed recorded : UInt64)
  | canceled
  | notActive
  | noActivation
  | activeAt (contract machine : UInt64)
  | machineVmid (contract machine : Digest)
  | underivedVmid (vmid : Digest)
  | expiry (computed : UInt64) (recorded : Option UInt64)
  | machineExpiry (machine computed : UInt64)
  | machineOpen
  | contractOpen
  | closedAt (contract machine : Option UInt64)
  | head (contract : Option Digest) (machine : Digest)
  | output (contract machine : Option String)
  | config (fault : StatusFault)
  | log (e : MachineError)
  | notSpent
  | noOutput
  | otherOutput
  | txid (computed : Digest) (recorded : Option Digest)
  | missingProof (status : Status)
  | proof (status : Status) (e : NotaryError)
  deriving DecidableEq, Repr

def Mismatch.message : Mismatch → String
  | .termsId c r => s!"computed terms id {c.short} does not match {r.short}"
  | .proposalId c r => s!"computed proposal id {c.short} does not match {r.short}"
  | .cid c r => s!"computed cid {c.short} does not match {r.short}"
  | .duplicateTemplate l => s!"duplicate template for '{l}'"
  | .undeclaredTemplate l => s!"template for undeclared path '{l}'"
  | .templateCount t p => s!"{t} templates for {p} paths"
  | .missingTemplate l => s!"no template for path '{l}'"
  | .otherTemplate l => s!"template for path '{l}' does not match"
  | .figure n c r => s!"tabulated {n} {c} does not match {r}"
  | .canceled => "contract is flagged as canceled"
  | .notActive => "contract is not flagged as active"
  | .noActivation => "contract has no activation record"
  | .activeAt c m => s!"activated at {c} but machine started {m}"
  | .machineVmid c m => s!"contract vmid {c.short} does not match machine {m.short}"
  | .underivedVmid v => s!"vmid {v.short} is not derived from the contract"
  | .expiry c r => s!"computed expiry {c} does not match {Text.optional toString r}"
  | .machineExpiry m c => s!"machine expires {m} instead of {c}"
  | .machineOpen => "machine is not closed"
  | .contractOpen => "contract is not closed"
  | .closedAt c m =>
    s!"closed at {Text.optional toString c} but machine closed {Text.optional toString m}"
  | .head c m => s!"engine head {Text.optional Digest.labelled c} does not match machine {m.short}"
  | .output c m =>
    s!"engine output {Text.optional Text.quoted c} does not match machine {Text.optional Text.quoted m}"
  | .config f => f.message
  | .log e => e.message
  | .notSpent => "contract is not spent"
  | .noOutput => "machine has no output"
  | .otherOutput => "machine output differs from contract"
  | .txid c r =>
    s!"settlement txid {c.short} does not match {Text.optional Digest.labelled r}"
  | .missingProof s => s!"contract signature missing: {s.name}"
  | .proof s e => s!"{s.name}: {e.message}"

/-- Why an operation on a contract, or its audit, fails. -/
inductive ContractError where
  | terms (e : TermsError)
  | verification (stage : Stage) (found : Mismatch)
  | unauthorized (fault : ContractAuthorityFault)
  | status (fault : StatusFault)
  | notary (e : NotaryError)
  | machine (e : MachineError)
  deriving DecidableEq, Repr

def ContractError.message : ContractError → String
  | .terms e => s!"validation failed: {e.message}"
  | .verification stage found => s!"{stage.name} verification failed: {found.message}"
  | .unauthorized f => s!"unauthorized: {f.message}"
  | .status f => f.message
  | .notary e => s!"notary error: {e.message}"
  | .machine e => s!"machine error: {e.message}"

end JointEscrow
