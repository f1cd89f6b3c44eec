import JointEscrow.Proofs.Contract.Audit
import JointEscrow.Proofs.Records
import Mathlib.Data.List.Nodup
import Mathlib.Data.List.Perm.Subperm

/-!
# What a passed audit shows

No single stage of the audit binds the payout. The identifier of a contract ignores the labels and
the order of its templates, the labels are compared with the terms only, and the templates with the
proposal that is handed in. Together the stages leave nothing open (`audited_of_verifySettlement`):
the proposal is the contract's terms, the templates are the proposal's, what was paid is the
template of the machine's output, the machine's log starts from the contract, and every status is
signed. `spentGift` is a record that passes, and the one that the operations write
(`GiftRun.spent_eq`).
-/

namespace JointEscrow

namespace Contract

variable {c : Contract} {m : Machine} {p : Proposal} {deposits : List Deposit}
  {authority : PublicKey}

/-! ## Templates and payout -/

/-- Distinct labels and as many templates as there are labels leave no room for a template that the
proposal does not give. -/
theorem perm_of_verified {outputs : List SpendTemplate}
    (houtputs : p.spendTemplates c.fees = .ok outputs)
    (hcount : c.outputs.length = (pathLabels p.paths).length)
    (hfound : ∀ t ∈ outputs, c.template? t.label = some t) : c.outputs.Perm outputs := by
  have hlabels := labels_of_spendTemplates houtputs
  have hnodup : outputs.Nodup := by
    apply List.Nodup.of_map (·.label)
    rw [hlabels]
    exact nodup_pathLabels _
  have hsub : outputs ⊆ c.outputs := by
    intro t ht
    exact List.mem_of_find?_eq_some (hfound t ht)
  have hlength : c.outputs.length ≤ outputs.length := by
    rw [hcount, ← hlabels, List.length_map]
  exact ((hnodup.subperm hsub).perm_of_length_le hlength).symm

/-- The settlement of a contract with the proposal's templates spends what the proposal pays on the
path of the contract's outcome. -/
theorem settlement_of_perm {outputs : List SpendTemplate} {s : Settlement}
    (houtputs : p.spendTemplates c.fees = .ok outputs) (hperm : c.outputs.Perm outputs)
    (hs : c.settlement deposits = .ok s) :
    ∃ label outs, c.engineVout = some label ∧ label ∈ pathLabels p.paths ∧
      pathOutputs label p.paths (p.payments ++ c.fees) = .ok outs ∧
        s = ⟨label, encodeTemplate outs, (deposits.filter (·.confirmed)).map (·.utxo)⟩ := by
  obtain ⟨-, label, t, template, hlabel, hfound, hbytes, rfl⟩ := settlement_eq_ok_iff.1 hs
  have ht : t ∈ outputs := hperm.subset (List.mem_of_find?_eq_some hfound)
  have htlabel : t.label = label := by simpa using List.find?_some hfound
  obtain ⟨outs, houts, hencoded⟩ := bytes_of_spendTemplates houtputs ht
  rw [hencoded] at hbytes
  cases hbytes
  rw [htlabel] at houts
  refine ⟨label, outs, hlabel, ?_, houts, rfl⟩
  rw [← labels_of_spendTemplates houtputs, ← htlabel]
  exact List.mem_map_of_mem ht

/-! ## The machine -/

/-- The configuration that the machine of a contract has, once activated for some span of time. -/
def configFrom (c : Contract) (activeAt expiresAt : UInt64) : MachineConfig where
  vmid := c.machineId activeAt
  activeAt := activeAt
  expiresAt := expiresAt
  engine := c.engineLabel
  pathnames := pathLabels c.terms.paths
  programs := c.terms.programs
  schedule := c.terms.schedule

theorem config_of_verified (hactivation : c.verifyActivation m = .ok ())
    (hclose : c.verifyClose m = .ok ()) :
    m.verifyFromGenesis (c.configFrom m.activeAt m.expiresAt) = .ok () := by
  obtain ⟨-, -, hactive, hengine, hvmid, -, hexpires⟩ := verifyActivation_eq_ok_iff.1 hactivation
  obtain ⟨-, -, -, -, -, config, hconfig, hlog⟩ := verifyClose_eq_ok_iff.1 hclose
  have hsame : c.machineConfig = .ok (c.configFrom m.activeAt m.expiresAt) := by
    rw [machineConfig_eq_ok_iff]
    exact ⟨hactive, hexpires, hengine.trans (congrArg some hvmid), rfl, rfl, rfl, rfl⟩
  have heq : config = c.configFrom m.activeAt m.expiresAt :=
    Except.ok.inj (hconfig.symm.trans hsame)
  rwa [heq] at hlog

/-! ## The whole audit -/

/-- The terms of every contract that was read have written patterns. -/
theorem written_terms_of_ofJson? {j : Json} (h : ofJson? j = some c) : c.terms.Written := by
  obtain ⟨row, -, h⟩ := Option.bind_eq_some_iff.1 h
  iterate 30 obtain ⟨_, -, h⟩ := Option.bind_eq_some_iff.1 h
  obtain ⟨terms, hterms, h⟩ := Option.bind_eq_some_iff.1 h
  iterate 7 obtain ⟨_, -, h⟩ := Option.bind_eq_some_iff.1 h
  cases h
  obtain ⟨i, hi⟩ := Row.exists_of_required hterms
  exact Proposal.written_of_ofJson? hi

/-- What a passed audit shows of a contract, its deposits, a proposal, a machine and an authority.
-/
structure Audited (c : Contract) (deposits : List Deposit) (p : Proposal) (m : Machine)
    (authority : PublicKey) : Prop where
  /-- The proposal is the one that the contract was made of. -/
  terms : p = c.terms
  /-- The templates are the proposal's, one for each label and in some order. -/
  templates : ∃ outputs, p.spendTemplates c.fees = .ok outputs ∧ c.outputs.Perm outputs ∧
    outputs.map (·.label) = pathLabels p.paths ∧ (pathLabels p.paths).Nodup
  /-- The machine's output is a declared path, and the transaction that spent the contract has as
  inputs the confirmed deposits and as outputs what the proposal pays on that path. -/
  payout : ∃ label outs txid, m.output = some label ∧ c.engineVout = some label ∧
    label ∈ pathLabels p.paths ∧ pathOutputs label p.paths (p.payments ++ c.fees) = .ok outs ∧
      settlementId (encodeTemplate outs) ((deposits.filter (·.confirmed)).map (·.utxo)) = .ok txid ∧
        c.spentTxid = some txid
  /-- The machine's log leads from the configuration of the contract to the recorded head. -/
  history : ∃ activeAt expiresAt, c.activeAt = some activeAt ∧ c.expiresAt = some expiresAt ∧
    activeAt.toNat + c.terms.duration.toNat = expiresAt.toNat ∧
      c.engineVmid = some (c.machineId activeAt) ∧ m.vmid = c.machineId activeAt ∧
        c.engineHead = some m.head ∧
          Machine.GapFree (c.configFrom activeAt expiresAt).genesis m.commits m.head
  /-- Every status up to the spending has a proof, and so has the last one if it was reached. -/
  proved : (∀ s ∈ [Status.published, .active, .closed, .spent], ∃ e ∈ c.sigs, e.status = s) ∧
    (c.settled = true → ∃ e ∈ c.sigs, e.status = .settled)
  /-- Every proof is the authority's signature over the record's note about the status. -/
  signed : ∀ e ∈ c.sigs, ∃ note sig, c.statusNote e.status = .ok note ∧ note.pubkey = authority ∧
    parseProof e.proof = .ok (note.id, sig) ∧ authority.verifies note.id sig = true

/-- A passed audit shows all of it, for records of any origin: where the digests of the proposal and
of the contract's terms do not collide, whatever is handed in as a proposal is those terms. The
patterns in them are written ones, as they are in every record that was read
(`Proposal.written_of_ofJson?`, `written_terms_of_ofJson?`). -/
theorem audited_of_verifySettlement (hterms : c.terms.Written) (hproposal : p.Written)
    (hfree : Digest.CollisionFree [Digest.preimage c.terms, Digest.preimage p])
    (h : c.verifySettlement deposits p m authority = .ok ()) :
    Audited c deposits p m authority := by
  obtain ⟨hdata, hpublishing, -, hactivation, hclose, hspending, hsignatures⟩ :=
    verifySettlement_eq_ok_iff.1 h
  obtain ⟨hid, -, -, -, hcount⟩ := verifyData_eq_ok_iff.1 hdata
  obtain ⟨hpid, outputs, houtputs, -, hfound⟩ := verifyPublishing_eq_ok_iff.1 hpublishing
  obtain ⟨-, hactivated, hactive, hengine, hvmid, hexpiry, hexpires⟩ :=
    verifyActivation_eq_ok_iff.1 hactivation
  obtain ⟨-, hclosed, -, hhead, -⟩ := verifyClose_eq_ok_iff.1 hclose
  obtain ⟨-, hspent, -, houtput, s, txid, hs, htxid, hrecorded⟩ :=
    verifySpending_eq_ok_iff.1 hspending
  obtain ⟨hproved, hproofs⟩ := verifySignatures_eq_ok_iff.1 hsignatures
  -- both identifiers are the recorded one, which ties the proposal to the terms
  have hsame : p = c.terms :=
    eq_of_ofValue_eq hfree hproposal.restored hterms.restored (by simp) (by simp)
      (hpid.trans hid.symm)
  have hcount' : c.outputs.length = (pathLabels p.paths).length := by rw [hcount, hsame]
  have hperm := perm_of_verified houtputs hcount' hfound
  refine ⟨hsame, ?templates, ?payout, ?history, ?proved, ?signed⟩
  case templates =>
    exact ⟨outputs, houtputs, hperm, labels_of_spendTemplates houtputs, nodup_pathLabels _⟩
  case payout =>
    obtain ⟨label, outs, hlabel, hdeclared, houts, rfl⟩ := settlement_of_perm houtputs hperm hs
    exact ⟨label, outs, txid, houtput.trans hlabel, hlabel, hdeclared, houts, htxid, hrecorded⟩
  case history =>
    have hlog := config_of_verified hactivation hclose
    obtain ⟨hlinks, -⟩ := Machine.verifyFromGenesis_eq_ok_iff.1 hlog
    exact ⟨m.activeAt, m.expiresAt, hactive, hexpires, hexpiry,
      hengine.trans (congrArg some hvmid), hvmid, hhead.symm,
      Machine.gapFree_of_followLinks hlinks⟩
  case proved =>
    constructor
    · intro s hs
      apply hproved
      rw [mem_reachedStatuses_iff]
      simp only [List.mem_cons, List.not_mem_nil, or_false] at hs
      rcases hs with rfl | rfl | rfl | rfl
      · rfl
      · exact hactivated
      · exact hclosed
      · exact hspent
    · intro hsettled
      exact hproved .settled (mem_reachedStatuses_iff.2 hsettled)
  case signed =>
    intro e he
    obtain ⟨note, hnote, hproof⟩ := verifyStatusProof_eq_ok_iff.1 (hproofs e he)
    obtain ⟨hpubkey, sig, hparse, hverifies⟩ := verifyProof_eq_ok_iff.1 hproof
    exact ⟨note, sig, hnote, hpubkey, hparse, hverifies⟩

end Contract

/-! ### A spent gift -/

/-- The signature that is made of these two numbers. -/
def signatureOf (r s : Nat) : Signature := ⟨takeBytes 64 (bigEndian 32 r ++ bigEndian 32 s)⟩

/-- The key of the server that gave out the record below. -/
def giftServer : PublicKey :=
  ⟨takeBytes 32
    (bigEndian 32 0xa7f6dfaf8f38b89ba8ce649b594f91e4d01fdc57f9c9493df43b5e50a9987367)⟩

/-- The record of a delayed gift that was closed by the clock and spent. -/
def spentGift : Contract where
  activated := true
  activeAt := some 0
  canceled := false
  canceledAt := none
  cid := .ofNat 0xbe824ab3ee82a5a010a0b0e818124bbfc7b2e88744f9fa0d8a264306b6a1dfef
  closed := true
  closedAt := some 10
  createdAt := 0
  deadline := 7200
  engineHead := some (.ofNat 0x04368434ade3cc047cb04d619fb00e7bce562797e5849d5527bbe682aed42dca)
  engineLabel := engineLabel
  engineVmid := some (.ofNat 0xf2b413d4c1305d53428cc6509e9119fd55f09c198dac6e91c966124ce276aaf6)
  engineVout := some "gift"
  expiresAt := some 60
  feerate := 1
  fees := []
  fundCount := 1
  fundPend := 0
  fundValue := 2000
  outputs := [⟨"gift", "0200000001000000e80300000000000022000000512071b278f3dc434447fc620500e47b6a80"
    ++ "b0cb0df76a1051119fe19ed4953242df00000000"⟩]
  propId := .ofNat 0x8faf14e5cd358cda0626a665e6e498f2ad25bb6b9e598d35c88ab51c744bc198
  serverPk := giftServer
  settled := false
  settledAt := none
  sigs := [
    ⟨.published, proofText
      (.ofNat 0xa5591d029a6d963287b4451dcbc3dacbf20bd63d1d8822d75ba1d326d84c5f28)
      (signatureOf 0xa1be6219985c0741b0b3e4cc330dd26eac61e83fa5a560ab9dff8f2f9ed95a1e
        0x640b2e6fb1bb268eccf11ae31a6f625d059b36a9912313790d3b7e31ef688a08)⟩,
    ⟨.active, proofText
      (.ofNat 0x2b4c2ab751c6d1c2aa1cbf9b2e051942a4ab30976b9f1aacd9b46466d1064976)
      (signatureOf 0xb59aa51373780a480b066999427033407c41f0e48e53f04ffca2c7cea37be837
        0x8d967d89b95253d5377c6f4a06390db564d9ab0e593f842e990d8c07e001350c)⟩,
    ⟨.closed, proofText
      (.ofNat 0xab4543470445b9ab1ecfa06c0154b05113b913e82503007e00ae0230f8cc2103)
      (signatureOf 0x634336013e18bfe6afb34451a0217bd02f42ad383c45f7d6291d2e81f7234ecd
        0x585e432066f3952453d9af43e90ddcb7cbead297f25e415a7051b93078b8da00)⟩,
    ⟨.spent, proofText
      (.ofNat 0xe0a7c3161ae0cf95174fbfa0f5d6c81e02a0592898de8165afaac6aac7a1513e)
      (signatureOf 0x81ce1366d0e21a81a619c9d8f07da657ca2eba844f4647811bfcc616b7859cef
        0x27d58b5251f92f20794c391639af98326b975436d116ead687eef7131288a50f)⟩]
  spent := true
  spentAt := some 20
  spentTxid := some (.ofNat 0x426770264b277954d724a7b52479bac3ce51d50b3113b3b7e010f45684f54453)
  status := .spent
  subtotal := 1000
  terms := delayedGift
  txBsize := 58
  txFees := 128
  txTotal := 1128
  txVsize := 128
  txinSize := 70
  vinCount := 1
  vinTxfee := 70

/-- The machine that closed the gift. -/
def giftMachine : Machine where
  vmid := .ofNat 0xf2b413d4c1305d53428cc6509e9119fd55f09c198dac6e91c966124ce276aaf6
  engine := engineLabel
  activeAt := 0
  expiresAt := 60
  updatedAt := 10
  head := .ofNat 0x04368434ade3cc047cb04d619fb00e7bce562797e5849d5527bbe682aed42dca
  step := 1
  paths := SortedMap.empty.insert "gift" .closed
  programs := []
  store := .empty
  commits := [⟨0, 10, .ofNat 0x9d373fa47c488c024058f819862f4bf59d75da716550d7ea396d0455732b33b6,
    .ofNat 0x3e9e1b495216aa5a635760bb1fcc6d7857ee7b69ff21a06dd09bdb107ed0420b⟩]
  tasks := []
  output := some "gift"
  error := none
  closed := true
  closedAt := some 10

namespace Contract

theorem id_delayedGift : delayedGift.id = spentGift.propId := by
  show Digest.ofBytes (utf8 (Json.compact _)) = _
  rw [Json.utf8_compact]
  decide +kernel

theorem derived_spentGift : spentGift.Derived := by
  have hcid : (contractId spentGift.outputs spentGift.propId 0).toOption = some spentGift.cid := by
    decide +kernel
  refine ⟨id_delayedGift.symm, toOption_eq_some_iff.1 (by decide +kernel), ?_⟩
  show contractId spentGift.outputs delayedGift.id 0 = .ok spentGift.cid
  rw [id_delayedGift]
  exact toOption_eq_some_iff.1 hcid

/-- What the identifier of a status note is the digest of, as characters. -/
theorem id_ofStatus (pubkey : PublicKey) (cid : Digest) (fields : Json) (time : UInt64) :
    (Note.ofStatus pubkey cid fields.compact time).id =
      .ofBytes ((Json.render (.arr [.num 0, .str pubkey.hex, .num time, .num 31000,
        .arr [.arr [.str "i", .str cid.hex]], .str fields.compact])).flatMap
          String.utf8EncodeChar) := by
  rw [← Json.utf8_compact]
  rfl

theorem verifySignatures_spentGift : spentGift.verifySignatures giftServer = .ok () := by
  refine verifySignatures_eq_ok_iff.2 ⟨by decide +kernel, ?_⟩
  refine List.forall_mem_cons.2 ⟨?_, List.forall_mem_cons.2 ⟨?_, List.forall_mem_cons.2 ⟨?_,
    List.forall_mem_singleton.2 ?_⟩⟩⟩
  all_goals
    refine verifyStatusProof_proofText rfl rfl ((id_ofStatus _ _ _ _).trans ?_) (by decide +kernel)
    simp only [Json.render, Json.renderItems, Json.renderMembers, Json.compact, Digest.hex,
      PublicKey.hex, Hex.encode, Json.renderText_ofList]
    decide +kernel

theorem verifySettlement_spentGift :
    spentGift.verifySettlement [giftDeposit] delayedGift giftMachine giftServer = .ok () := by
  refine verifySettlement_eq_ok_iff.2 ⟨derived_spentGift.verifyData,
    derived_spentGift.verifyPublishing, ?_, ?_, ?_, ?_, verifySignatures_spentGift⟩
  all_goals exact toOption_eq_some_iff.1 (by decide +kernel)

theorem written_delayedGift : delayedGift.Written := by
  constructor
  · intro t ht
    cases ht
  · intro e he
    obtain rfl := List.mem_singleton.1 he
    exact ⟨"*", by decide⟩

/-- The gift passes its audit, which shows that it is what was paid. -/
theorem spentGift_audited :
    spentGift.verifySettlement [giftDeposit] delayedGift giftMachine giftServer = .ok () ∧
      Audited spentGift [giftDeposit] delayedGift giftMachine giftServer := by
  -- the proposal that is handed in is the contract's own
  have hfree : ∀ x, Digest.CollisionFree [x, x] := by
    intro x a ha b hb _
    rw [List.mem_pair, or_self] at ha hb
    rw [ha, hb]
  exact ⟨verifySettlement_spentGift, audited_of_verifySettlement written_delayedGift
    written_delayedGift (hfree _) verifySettlement_spentGift⟩

/-! ### The gift as the operations write it -/

theorem publicKey_escrowKey : escrowKey.publicKey = giftServer := by
  decide +kernel

theorem standing_spentGift : spentGift.Standing escrowKey := by
  refine ⟨?_, rfl, ?_⟩
  · intro s
    cases s <;> rfl
  · have hproofs := (verifySignatures_eq_ok_iff.1 verifySignatures_spentGift).2
    simp only [spentGift, List.forall_mem_cons] at hproofs ⊢
    obtain ⟨hpublished, hactive, hclosed, hspent, -⟩ := hproofs
    refine ⟨?_, ?_, ?_, ?_, nofun⟩
    · exact notarized_of_verifyStatusProof hpublished (by decide +kernel)
    · exact notarized_of_verifyStatusProof hactive (by decide +kernel)
    · exact notarized_of_verifyStatusProof hclosed (by decide +kernel)
    · exact notarized_of_verifyStatusProof hspent (by decide +kernel)

theorem machineId_spentGift : spentGift.machineId 0 = giftMachine.vmid := by
  obtain ⟨-, -, -, hactivation, -⟩ := verifySettlement_eq_ok_iff.1 verifySettlement_spentGift
  obtain ⟨-, -, -, -, hvmid, -⟩ := verifyActivation_eq_ok_iff.1 hactivation
  exact hvmid.symm

/-- The machine of the gift closes it when its time has come. -/
theorem run_giftMachine :
    (Machine.start (spentGift.configFrom 0 60)).toOption.bind (·.accept (.clock 10)) =
      some giftMachine := by
  unfold configFrom
  rw [machineId_spentGift]
  decide +kernel

/-- The gift as it is published, before its first proof. -/
def publishedGift : Contract :=
  fresh {} {} delayedGift giftServer 0 spentGift.outputs spentGift.cid 1000

def fundedGift : Contract := publishedGift.withTotals (publishedGift.tabulate [giftDeposit])

def activeGift : Contract := fundedGift.started 0 giftMachine.vmid 60

def closedGift : Contract := activeGift.ended giftMachine 10

theorem closedGift_paid {txid : Digest} (h : spentGift.spentTxid = some txid)
    (sigs : ProofLog Status) : (closedGift.paid txid 20).signed sigs = spentGift.signed sigs := by
  -- proofs are texts that are long to compare, and they are not written yet
  have hfields : (closedGift.paid txid 20).signed [] = spentGift.signed [] := by
    cases h
    simp only [closedGift, activeGift, fundedGift, publishedGift, fresh, draft, id_delayedGift]
    decide +kernel
  exact signed_congr hfields sigs

end Contract

namespace GiftRun

open Contract

variable (run : GiftRun)

theorem published_eq : ∃ sigs, run.published.contract = publishedGift.signed sigs := by
  obtain ⟨outputs, cid, fees, subtotal, sigs, houtputs, hcid, hfees, hsubtotal, heq⟩ :=
    fresh_of_create run.creates
  obtain ⟨-, htemplates, hderived⟩ := derived_spentGift
  have houtputs : outputs = spentGift.outputs := Except.ok.inj (houtputs.symm.trans htemplates)
  rw [houtputs] at hcid heq
  have hcid : cid = spentGift.cid := Except.ok.inj (hcid.symm.trans hderived)
  have hfees : 0 = fees := Except.ok.inj hfees
  rw [← hfees] at hsubtotal
  have hsubtotal : 1000 = subtotal := Except.ok.inj hsubtotal
  rw [heq, hcid, ← hsubtotal, publicKey_escrowKey]
  exact ⟨sigs, rfl⟩

theorem funded_eq : ∃ sigs, run.funded.contract = fundedGift.signed sigs := by
  obtain ⟨sigs, hpublished⟩ := run.published_eq
  obtain ⟨-, -, hfunded⟩ := fund_eq_ok_iff.1 run.funds
  rw [hfunded, hpublished]
  unfold fundedGift
  -- whatever is published, so that nothing computes its figures here
  generalize publishedGift = c
  exact ⟨sigs, rfl⟩

theorem active_eq : ∃ sigs, run.active.contract = activeGift.signed sigs ∧
    Machine.start (spentGift.configFrom 0 60) = .ok run.started := by
  obtain ⟨sigs₀, hfunded⟩ := run.funded_eq
  obtain ⟨-, expiresAt, config, next, hspan, hconfig, hstart, hrecord, hactive⟩ :=
    activate_eq_ok_iff.1 run.activates
  obtain ⟨-, note, sigs, -, -, hnext⟩ := recordStatus_eq_ok_iff.1 hrecord
  rw [hfunded] at hspan hconfig hnext
  have hexpires : expiresAt = 60 := by
    rw [← UInt64.toNat_inj, ← hspan]
    rfl
  have hvmid : (fundedGift.signed sigs₀).machineId 0 = giftMachine.vmid := machineId_spentGift
  rw [hexpires, hvmid] at hconfig hnext
  refine ⟨sigs, ?_, ?_⟩
  · rw [hactive, hnext]
    unfold activeGift
    generalize fundedGift = c
    rfl
  · have hsame : spentGift.configFrom 0 60 = config := by
      unfold configFrom
      rw [machineId_spentGift]
      exact Except.ok.inj hconfig
    rw [hsame]
    exact hstart

theorem machine_eq : run.machine = giftMachine := by
  obtain ⟨sigs, -, hstart⟩ := run.active_eq
  have hrun := run_giftMachine
  rw [hstart] at hrun
  exact Option.some.inj (run.waits.symm.trans hrun)

theorem closed_eq : ∃ sigs, run.closed.contract = closedGift.signed sigs := by
  obtain ⟨sigs₀, hactive, -⟩ := run.active_eq
  obtain ⟨-, -, -, time, next, htime, hrecord, hclosed⟩ := close_eq_ok_iff.1 run.closes
  obtain ⟨-, note, sigs, -, -, hnext⟩ := recordStatus_eq_ok_iff.1 hrecord
  rw [run.machine_eq] at htime hnext
  cases htime
  rw [hclosed, hnext, hactive]
  unfold closedGift
  generalize activeGift = c
  exact ⟨sigs, rfl⟩

/-- Every run of the gift ends in the record above: what each operation writes is settled by the
record before it, and the proofs by the notes. -/
theorem spent_eq : run.spent.contract = spentGift := by
  have hsound := Session.sound_of_steps (Session.sound_of_create run.creates) run.steps_spent
  have hstanding := hsound.standing
  obtain ⟨sigs₀, hclosed⟩ := run.closed_eq
  obtain ⟨-, -, -, s, txid, next, hs, htxid, hrecord, hspent⟩ := spend_eq_ok_iff.1 run.spends
  obtain ⟨-, note, sigs, -, -, hnext⟩ := recordStatus_eq_ok_iff.1 hrecord
  rw [hclosed] at hs hnext
  -- the settlement is the one that the record was audited with
  obtain ⟨-, -, -, -, -, hspending, -⟩ := verifySettlement_eq_ok_iff.1 verifySettlement_spentGift
  obtain ⟨-, -, -, -, s', txid', hs', htxid', hrecorded⟩ := verifySpending_eq_ok_iff.1 hspending
  have hsettlement : (closedGift.signed sigs₀).settlement [giftDeposit] =
      spentGift.settlement [giftDeposit] := by
    apply settlement_congr <;> rfl
  have hsame : s = s' := Except.ok.inj (hs.symm.trans (hsettlement.trans hs'))
  rw [hsame] at htxid
  have htxid : txid = txid' := Except.ok.inj (htxid.symm.trans htxid')
  rw [← htxid] at hrecorded
  have hspent : run.spent.contract = spentGift.signed sigs := by
    rw [hspent, hnext, ← closedGift_paid hrecorded]
    generalize closedGift = c
    rfl
  -- both logs follow from the notes, which are the same
  rw [hspent] at hstanding ⊢
  have hsigs : (spentGift.signed sigs).sigs = spentGift.sigs :=
    hstanding.sigs_eq standing_spentGift rfl (statusNote_signed _ _)
  exact congrArg spentGift.signed hsigs

end GiftRun

end JointEscrow
