import JointEscrow.Bytes.Hex
import JointEscrow.Bytes.Word
import JointEscrow.Contract.Audit
import JointEscrow.Contract.Error
import JointEscrow.Contract.Event
import JointEscrow.Contract.Funds
import JointEscrow.Contract.Lifecycle
import JointEscrow.Contract.Policy
import JointEscrow.Contract.PolicyText
import JointEscrow.Contract.Publication
import JointEscrow.Contract.Record
import JointEscrow.Contract.StatusNote
import JointEscrow.Curve.Edwards
import JointEscrow.Curve.Signing
import JointEscrow.Digest
import JointEscrow.Hash.Blake3
import JointEscrow.Hash.Sha512
import JointEscrow.Json.Form
import JointEscrow.Json.Parser
import JointEscrow.Json.Printer
import JointEscrow.Json.Value
import JointEscrow.Keys
import JointEscrow.Machine.Clock
import JointEscrow.Machine.Error
import JointEscrow.Machine.Init
import JointEscrow.Machine.Log
import JointEscrow.Machine.Program
import JointEscrow.Machine.State
import JointEscrow.Machine.Step
import JointEscrow.Notary.Log
import JointEscrow.Notary.Proof
import JointEscrow.Notary.Receipt
import JointEscrow.Number.Amount
import JointEscrow.Number.Binary64
import JointEscrow.Payout.Output
import JointEscrow.Payout.PathOutputs
import JointEscrow.Sorted.Distinct
import JointEscrow.Sorted.Key
import JointEscrow.Sorted.Map
import JointEscrow.Sorted.Set
import JointEscrow.Terms.Action
import JointEscrow.Terms.Error
import JointEscrow.Terms.Pattern
import JointEscrow.Terms.Proposal
import JointEscrow.Terms.Totals
import JointEscrow.Terms.Validity
import JointEscrow.Text.Blank
import JointEscrow.Text.Quoted
import JointEscrow.Text.Split
import JointEscrow.Text.Unseen
import JointEscrow.Toml.Document
import JointEscrow.Toml.Members
import JointEscrow.Toml.Scalar
import JointEscrow.Toml.Text
import JointEscrow.Toml.Value
import JointEscrow.Witness
import JointEscrow.Proofs.Checks
import JointEscrow.Proofs.Machine.Outcome
import JointEscrow.Proofs.Machine.Clock
import JointEscrow.Proofs.Machine.Replay
import JointEscrow.Proofs.Machine.Authorization
import JointEscrow.Proofs.Machine.Agreement
import JointEscrow.Proofs.Bytes.Hex
import JointEscrow.Proofs.Notary
import JointEscrow.Proofs.Machine.LogChain
import JointEscrow.Proofs.Contract.Operations
import JointEscrow.Proofs.Contract.Advance
import JointEscrow.Proofs.Contract.AuditStages
import JointEscrow.Proofs.Contract.Standing
import JointEscrow.Proofs.Contract.Session
import JointEscrow.Proofs.Contract.Templates
import JointEscrow.Proofs.Contract.Audit
import JointEscrow.Proofs.Totals
import JointEscrow.Proofs.Contract.Tabulation
import JointEscrow.Proofs.Contract.Solvency
import JointEscrow.Proofs.Machine.Lag
import JointEscrow.Proofs.Json.RoundTrip
import JointEscrow.Proofs.Json.Restored
import JointEscrow.Proofs.Records
import JointEscrow.Proofs.Machine.LogCommitment
import JointEscrow.Proofs.Machine.History
import JointEscrow.Proofs.Machine.Disputes
import JointEscrow.Proofs.Contract.AuditSoundness
import JointEscrow.Proofs.Machine.Provenance
import JointEscrow.Proofs.Payout.Encoding
import JointEscrow.Proofs.Contract.Conservation
import JointEscrow.Proofs.Contract.AuditFigures
import JointEscrow.Proofs.Contract.AuditHalts
import JointEscrow.Proofs.Machine.Start
import JointEscrow.Proofs.Machine.Timeline
import JointEscrow.Proofs.Contract.FundingWindow
import JointEscrow.Proofs.Contract.Progress
import JointEscrow.Proofs.Machine.Pending
import JointEscrow.Proofs.Records.Machine
import JointEscrow.Proofs.Records.Contract
import JointEscrow.Proofs.Records.RoundTrip
import JointEscrow.Proofs.Contract.StatusProofs
import JointEscrow.Proofs.Statements
import JointEscrow.Proofs.Machine.Acceptance
import JointEscrow.Proofs.Machine.Batching
import JointEscrow.Proofs.Bytes.Order
import JointEscrow.Proofs.Machine.Schedule
import JointEscrow.Proofs.Terms.WellFormed
import JointEscrow.Proofs.Contract.Publication
import JointEscrow.Proofs.Contract.Identifiers
import JointEscrow.Proofs.Machine.Satisfaction
import JointEscrow.Proofs.Notary.Log
import JointEscrow.Proofs.Terms.Patterns
import JointEscrow.Proofs.Contract.Listing
import JointEscrow.Proofs.Bytes.Digits
import JointEscrow.Proofs.Terms.LabelTotals
import JointEscrow.Proofs.Endorsing
import JointEscrow.Proofs.Notary.ProofText
import JointEscrow.Proofs.Notary.Receipts
