import JointEscrow.Terms.Validity

/-!
# Server policy

The bounds that a proposal must lie in before the server publishes it, and the settings that it
publishes contracts with. Every field has a default, in a record and in its absence.
-/

namespace JointEscrow

structure ProposalPolicy where
  minDuration : UInt64 := 60
  maxDuration : UInt64 := 2592000
  minValue : UInt64 := 1000
  maxValue : UInt64 := 100000000
  minFeerate : UInt64 := 1
  maxFeerate : UInt64 := 1000
  maxDeadline : UInt64 := 604800
  networks : List Network := [.testnet, .signet, .regtest, .mutiny]
  deriving DecidableEq, Repr

namespace ProposalPolicy

def fieldNames : List String :=
  ["min_duration", "max_duration", "min_value", "max_value", "min_feerate", "max_feerate",
    "max_deadline", "networks"]

instance : JsonForm ProposalPolicy where
  toJson p := .obj [("min_duration", toJson p.minDuration), ("max_duration", toJson p.maxDuration),
    ("min_value", toJson p.minValue), ("max_value", toJson p.maxValue),
    ("min_feerate", toJson p.minFeerate), ("max_feerate", toJson p.maxFeerate),
    ("max_deadline", toJson p.maxDeadline), ("networks", toJson p.networks)]
  ofJson? j := do
    let row ← Row.ofJson? fieldNames 0 j
    let d : ProposalPolicy := {}
    return {
      minDuration := ← row.withDefault "min_duration" d.minDuration
      maxDuration := ← row.withDefault "max_duration" d.maxDuration
      minValue := ← row.withDefault "min_value" d.minValue
      maxValue := ← row.withDefault "max_value" d.maxValue
      minFeerate := ← row.withDefault "min_feerate" d.minFeerate
      maxFeerate := ← row.withDefault "max_feerate" d.maxFeerate
      maxDeadline := ← row.withDefault "max_deadline" d.maxDeadline
      networks := ← row.withDefault "networks" d.networks }

end ProposalPolicy

/-- The settings of publication: the size charged per deposit, the funding window and feerate of
proposals that set none, and whether every member must have endorsed. -/
structure ContractPolicy where
  txinSize : UInt64 := 70
  defaultDeadline : UInt64 := 7200
  defaultFeerate : UInt64 := 1
  requireMemberEndorsements : Bool := true
  deriving DecidableEq, Repr

namespace ContractPolicy

def fieldNames : List String :=
  ["txin_size", "default_deadline", "default_feerate", "require_member_endorsements"]

instance : JsonForm ContractPolicy where
  toJson p := .obj [("txin_size", toJson p.txinSize), ("default_deadline", toJson p.defaultDeadline),
    ("default_feerate", toJson p.defaultFeerate),
    ("require_member_endorsements", toJson p.requireMemberEndorsements)]
  ofJson? j := do
    let row ← Row.ofJson? fieldNames 0 j
    let d : ContractPolicy := {}
    return {
      txinSize := ← row.withDefault "txin_size" d.txinSize
      defaultDeadline := ← row.withDefault "default_deadline" d.defaultDeadline
      defaultFeerate := ← row.withDefault "default_feerate" d.defaultFeerate
      requireMemberEndorsements :=
        ← row.withDefault "require_member_endorsements" d.requireMemberEndorsements }

end ContractPolicy

structure ServerPolicy where
  proposal : ProposalPolicy := {}
  contract : ContractPolicy := {}
  deriving DecidableEq, Repr

namespace ServerPolicy

instance : JsonForm ServerPolicy where
  toJson p := .obj [("proposal", toJson p.proposal), ("contract", toJson p.contract)]
  ofJson? j := do
    let row ← Row.ofJson? ["proposal", "contract"] 0 j
    return ⟨← row.withDefault "proposal" {}, ← row.withDefault "contract" {}⟩

def checkWithin (field : String) (value low high : UInt64) : Except TermsError Unit :=
  ensure (low ≤ value && value ≤ high) (.outOfBounds field value low high)

def checkProposal (policy : ServerPolicy) (p : Proposal) : Except TermsError Unit := do
  let b := policy.proposal
  checkWithin "duration" p.duration b.minDuration b.maxDuration
  checkWithin "value" p.value b.minValue b.maxValue
  p.feerate.forM fun f => checkWithin "feerate" f b.minFeerate b.maxFeerate
  p.deadline.forM fun d => checkWithin "deadline" d 1 b.maxDeadline
  ensure (p.network ∈ b.networks) (.unacceptedNetwork p.network.name)

def checkFeerate (policy : ServerPolicy) (feerate : UInt64) : Except TermsError Unit :=
  checkWithin "feerate" feerate policy.proposal.minFeerate policy.proposal.maxFeerate

end ServerPolicy

/-- The options of one publication: server fees that every template pays, and a feerate that goes
before the proposal's and the policy's. -/
structure PublishOptions where
  fees : List Payment := []
  feerate : Option UInt64 := none
  deriving DecidableEq, Repr

namespace PublishOptions

instance : JsonForm PublishOptions where
  toJson o := .obj [("fees", toJson o.fees), ("feerate", toJson o.feerate)]
  ofJson? j := do
    let row ← Row.ofJson? ["fees", "feerate"] 0 j
    return ⟨← row.withDefault "fees" [], ← row.optional "feerate"⟩

end PublishOptions

end JointEscrow
