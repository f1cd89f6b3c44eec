import JointEscrow.Contract.Funds
import JointEscrow.Contract.Policy
import JointEscrow.Contract.StatusNote
import JointEscrow.Contract.Event
import JointEscrow.Machine.Init
import JointEscrow.Payout.PathOutputs

/-!
# Publication

An endorsed proposal becomes a contract: the request is checked, every path gets its spend template,
the identifiers are derived, and the first status is notarized.
-/

namespace JointEscrow

structure PublishRequest where
  proposal : Proposal
  endorsements : List Endorsement
  deriving DecidableEq, Repr

instance : JsonForm PublishRequest where
  toJson r := .obj [("proposal", toJson r.proposal), ("endorsements", toJson r.endorsements)]
  ofJson? j := do
    let row ← Row.ofJson? ["proposal", "endorsements"] 1 j
    return ⟨← row.required "proposal", ← row.withDefault "endorsements" []⟩

/-- Every endorsement verifies over the identifier, and no key endorses twice; `seen` are the keys
of the endorsements before these. -/
def checkEndorsements (id : Digest) (seen : List PublicKey) :
    List Endorsement → Except ContractError Unit
  | [] => .ok ()
  | e :: r =>
    if !e.verifies id then .error (.unauthorized (.badEndorsement e.pubkey))
    else if e.pubkey ∈ seen then .error (.terms (.duplicateEndorsement e.pubkey))
    else checkEndorsements id (e.pubkey :: seen) r

/-- Every member has endorsed; the least one that has not is named. -/
def checkMembers (members : SortedSet PublicKey) (signed : List PublicKey) :
    Except ContractError Unit :=
  match members.elements.find? fun k => k ∉ signed with
  | some k => .error (.unauthorized (.missingMember k))
  | none => .ok ()

/-- Checks a request: structure, policy, programs, endorsements, members. -/
def PublishRequest.verify (policy : ServerPolicy) (r : PublishRequest) : Except ContractError Unit := do
  r.proposal.validate.mapError .terms
  (policy.checkProposal r.proposal).mapError .terms
  (r.proposal.programs.forM (·.checkSupported (pathLabels r.proposal.paths))).mapError .terms
  checkEndorsements r.proposal.id [] r.endorsements
  if policy.contract.requireMemberEndorsements then
    checkMembers r.proposal.members (r.endorsements.map (·.pubkey))

/-- The template of one path with the payments of every path. -/
def spendTemplate (paths : List PathEntry) (payments : List Payment) (label : String) :
    Except TermsError SpendTemplate := do
  return ⟨label, Hex.encode (encodeTemplate (← pathOutputs label paths payments))⟩

/-- One template per label, in label order; each pays the path, the payments and the fees. -/
def Proposal.spendTemplates (p : Proposal) (fees : List Payment) :
    Except TermsError (List SpendTemplate) :=
  (pathLabels p.paths).mapM (spendTemplate p.paths (p.payments ++ fees))

def SpendTemplate.bytes (t : SpendTemplate) : Except TermsError (List UInt8) :=
  (Hex.decode t.txhex).mapError (.invalidHex "outputs")

def sortBytes (l : List (List UInt8)) : List (List UInt8) := l.mergeSort fun a b => !decide (b < a)

/-- The bytes that a contract's identifier is the digest of. -/
def contractBytes (templates : List (List UInt8)) (propId : Digest) (createdAt : UInt64) :
    List UInt8 :=
  propId.bytes.toList ++ bigEndian 8 createdAt.toNat ++ (sortBytes templates).flatten

/-- The identifier of a contract. The order of the templates does not matter. -/
def contractId (outputs : List SpendTemplate) (propId : Digest) (createdAt : UInt64) :
    Except TermsError Digest := do
  return .ofBytes (contractBytes (← outputs.mapM SpendTemplate.bytes) propId createdAt)

/-- A contract after a change, with the event that tells of it. -/
structure Change where
  contract : Contract
  event : Event
  deriving DecidableEq, Repr

namespace Contract

/-- A fresh record, before its figures and its first proof. -/
def draft (options : PublishOptions) (policy : ServerPolicy) (p : Proposal) (key : PublicKey)
    (now : UInt64) (outputs : List SpendTemplate) (cid : Digest) (feerate subtotal : UInt64) :
    Contract where
  activated := false
  activeAt := none
  canceled := false
  canceledAt := none
  cid := cid
  closed := false
  closedAt := none
  createdAt := now
  deadline := p.fundingDeadline now policy.contract.defaultDeadline
  engineHead := none
  engineLabel := JointEscrow.engineLabel
  engineVmid := none
  engineVout := none
  expiresAt := none
  feerate := feerate
  fees := options.fees
  fundCount := 0
  fundPend := 0
  fundValue := 0
  outputs := outputs
  propId := p.id
  serverPk := key
  settled := false
  settledAt := none
  sigs := []
  spent := false
  spentAt := none
  spentTxid := none
  status := .published
  subtotal := subtotal
  terms := p
  txBsize := longestTemplate outputs
  txFees := 0
  txTotal := 0
  txVsize := 0
  txinSize := policy.contract.txinSize
  vinCount := 0
  vinTxfee := mulClamped policy.contract.txinSize feerate

/-- The feerate of a publication: the option, else the proposal's, else the policy's. -/
def chooseFeerate (options : PublishOptions) (policy : ServerPolicy) (p : Proposal) : UInt64 :=
  (options.feerate.orElse fun _ => p.feerate).getD policy.contract.defaultFeerate

def create (options : PublishOptions) (policy : ServerPolicy) (r : PublishRequest) (key : KeyPair)
    (now : UInt64) : Except ContractError Change := do
  r.verify policy
  let p := r.proposal
  let outputs ← (p.spendTemplates options.fees).mapError .terms
  let cid ← (contractId outputs p.id now).mapError .terms
  let feerate := chooseFeerate options policy p
  (policy.checkFeerate feerate).mapError .terms
  let fees ← (paymentTotal options.fees).mapError .terms
  let subtotal ← (totalOf [p.value, fees] "contract subtotal").mapError .terms
  let c := draft options policy p key.publicKey now outputs cid feerate subtotal
  let c ← (c.withTotals (c.tabulate [])).recordStatus key
  return ⟨c, .published cid⟩

end Contract

end JointEscrow
