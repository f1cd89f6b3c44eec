import JointEscrow.Proofs.Contract.AuditSoundness
import JointEscrow.Proofs.Records.Contract

/-!
# Texts of records

Every kind of record survives being written and read again (`records_roundTrip`). Where a record
holds patterns they have to be written ones, and a record that was read from any text holds no
others, so its own text is as good as the one it came from: it is read as the same record, which has
the same digest.
-/

namespace JointEscrow

variable {α : Type} [JsonForm α]

/-- Writing loses nothing of the records that count as written, and reading gives no others. -/
structure RoundTrips (α : Type) [JsonForm α] (Written : α → Prop) : Prop where
  /-- A record is what its text is read as. -/
  decoded : ∀ a, Written a → decode (encode a) = some a
  /-- Whatever text a record was read from, it is written anew without loss. -/
  written : ∀ text (a : α), decode text = some a → Written a
  /-- The record that is then read from the new text is the same and has the same digest. -/
  reread : ∀ text (a : α), decode text = some a → ∃ b : α, decode (encode a) = some b ∧ b = a ∧
    Digest.ofBytes (utf8 (encode a)) = Digest.ofValue b

theorem roundTrips_of_written {Written : α → Prop} (hrestored : ∀ a, Written a → Restored a)
    (hread : ∀ j a, ofJson? j = some a → Written a) : RoundTrips α Written := by
  have hwritten : ∀ text a, decode text = some a → Written a := by
    intro text a h
    obtain ⟨j, hj⟩ := exists_of_decode h
    exact hread j a hj
  have hdecoded : ∀ a, Written a → decode (encode a) = some a :=
    fun a ha => decode_encode (hrestored a ha)
  refine ⟨hdecoded, hwritten, ?_⟩
  intro text a h
  exact ⟨a, hdecoded a (hwritten text a h), rfl, rfl⟩

/-- A type without patterns has no values that do not count as written. -/
theorem roundTrips_of_restored (h : ∀ a : α, Restored a) : RoundTrips α fun _ => True :=
  roundTrips_of_written (fun a _ => h a) fun _ _ _ => trivial

/-- Each kind of record, with what its patterns have to be. -/
structure RecordsRoundTrip : Prop where
  proposal : RoundTrips Proposal Proposal.Written
  programTerms : RoundTrips ProgramTerms ProgramTerms.Written
  program : RoundTrips Program Program.Written
  scheduleEntry : RoundTrips ScheduleEntry ScheduleEntry.Written
  machineConfig : RoundTrips MachineConfig MachineConfig.Written
  machine : RoundTrips Machine Machine.Written
  witness : RoundTrips Witness fun _ => True
  commit : RoundTrips Commit fun _ => True
  task : RoundTrips Task Task.Written
  note : RoundTrips Note fun _ => True
  proofEntry : RoundTrips (ProofEntry Status) fun _ => True
  proofLog : RoundTrips (ProofLog Status) fun _ => True
  /-- A proof and a log can also be marked with any texts for statuses. -/
  textProofEntry : RoundTrips (ProofEntry String) fun _ => True
  textProofLog : RoundTrips (ProofLog String) fun _ => True
  receipt : RoundTrips Receipt fun _ => True
  txOutput : RoundTrips TxOutput fun _ => True
  utxo : RoundTrips Utxo fun _ => True
  deposit : RoundTrips Deposit fun _ => True
  spendTemplate : RoundTrips SpendTemplate fun _ => True
  publishRequest : RoundTrips PublishRequest PublishRequest.Written
  contract : RoundTrips Contract Contract.Written
  event : RoundTrips Event fun _ => True
  fundTotals : RoundTrips FundTotals fun _ => True

theorem restored_proofLog {σ : Type} [JsonForm σ] (h : ∀ t : σ, Restored t) (log : ProofLog σ) :
    Restored log :=
  restored_list fun e _ => restored_proofEntry (h e.status)

/-- Every kind of record is read back from its text, and whatever text a record was read from, the
text that it is then written as is read as the same record and has its digest. -/
theorem records_roundTrip : RecordsRoundTrip where
  proposal := roundTrips_of_written (fun _ h => h.restored) fun _ _ => Proposal.written_of_ofJson?
  programTerms :=
    roundTrips_of_written (fun _ h => h.restored) fun _ _ => ProgramTerms.written_of_ofJson?
  program := roundTrips_of_written (fun _ h => h.restored) fun _ _ => Program.written_of_ofJson?
  scheduleEntry :=
    roundTrips_of_written (fun _ h => h.restored) fun _ _ => ScheduleEntry.written_of_ofJson?
  machineConfig :=
    roundTrips_of_written (fun _ h => h.restored) fun _ _ => MachineConfig.written_of_ofJson?
  machine := roundTrips_of_written (fun _ h => h.restored) fun _ _ => Machine.written_of_ofJson?
  witness := roundTrips_of_restored restored_witness
  commit := roundTrips_of_restored restored_commit
  task := roundTrips_of_written (fun _ h => h.restored) fun _ _ => Task.written_of_ofJson?
  note := roundTrips_of_restored restored_note
  proofEntry := roundTrips_of_restored fun e => restored_proofEntry (restored_status e.status)
  proofLog := roundTrips_of_restored (restored_proofLog restored_status)
  textProofEntry := roundTrips_of_restored fun e => restored_proofEntry (restored_string e.status)
  textProofLog := roundTrips_of_restored (restored_proofLog restored_string)
  receipt := roundTrips_of_restored restored_receipt
  txOutput := roundTrips_of_restored restored_txOutput
  utxo := roundTrips_of_restored restored_utxo
  deposit := roundTrips_of_restored restored_deposit
  spendTemplate := roundTrips_of_restored restored_spendTemplate
  publishRequest :=
    roundTrips_of_written (fun _ h => h.restored) fun _ _ => PublishRequest.written_of_ofJson?
  contract :=
    roundTrips_of_written (fun _ h => h.restored) fun _ _ => Contract.written_terms_of_ofJson?
  event := roundTrips_of_restored restored_event
  fundTotals := roundTrips_of_restored restored_fundTotals

end JointEscrow
