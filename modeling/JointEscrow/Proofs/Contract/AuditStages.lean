import JointEscrow.Contract.Audit
import JointEscrow.Proofs.Contract.Operations
import JointEscrow.Proofs.Contract.Templates

/-!
# The stages of the audit

What each stage of the audit comes to: it passes exactly when the record, the proposal and the
machine agree as stated here. `verifySettlement_eq_ok_iff` puts the stages together.
-/

namespace JointEscrow

namespace Contract

variable {c : Contract} {m : Machine} {p : Proposal} {deposits : List Deposit}
  {authority : PublicKey}

theorem audit_eq_ok_iff {stage : Stage} {ok : Bool} {found : Mismatch} :
    audit stage ok found = .ok () ↔ ok = true := ensure_eq_ok_iff

/-! ## Identifiers and templates -/

theorem auditLabels_eq_ok_iff {labels seen : List String} {templates : List SpendTemplate} :
    auditLabels labels seen templates = .ok () ↔
      (templates.map (·.label)).Nodup ∧ (∀ t ∈ templates, t.label ∉ seen) ∧
        ∀ t ∈ templates, t.label ∈ labels := by
  induction templates generalizing seen with
  | nil => simp [auditLabels]
  | cons t r ih =>
    rw [auditLabels, check_bind_eq_ok_iff, check_bind_eq_ok_iff, audit_eq_ok_iff, audit_eq_ok_iff,
      decide_eq_true_eq, decide_eq_true_eq, ih, ← and_assoc (b := ∀ t' ∈ r, t'.label ∉ _),
      nodup_fresh_cons_iff, List.map_cons, List.forall_mem_cons, List.forall_mem_cons]
    constructor
    · rintro ⟨hfresh, hdeclared, ⟨hnodup, hrest⟩, hlabels⟩
      exact ⟨hnodup, ⟨hfresh, hrest⟩, hdeclared, hlabels⟩
    · rintro ⟨hnodup, ⟨hfresh, hrest⟩, hdeclared, hlabels⟩
      exact ⟨hfresh, hdeclared, ⟨hnodup, hrest⟩, hlabels⟩

theorem verifyData_eq_ok_iff :
    c.verifyData = .ok () ↔
      c.terms.id = c.propId ∧ contractId c.outputs c.terms.id c.createdAt = .ok c.cid ∧
        (c.outputs.map (·.label)).Nodup ∧ (∀ t ∈ c.outputs, t.label ∈ pathLabels c.terms.paths) ∧
          c.outputs.length = (pathLabels c.terms.paths).length := by
  unfold verifyData
  rw [check_bind_eq_ok_iff, bind_eq_ok_iff]
  simp only [check_bind_eq_ok_iff, audit_eq_ok_iff, decide_eq_true_eq, mapError_eq_ok_iff,
    auditLabels_eq_ok_iff, List.not_mem_nil, not_false_eq_true, implies_true, true_and]
  constructor
  · rintro ⟨hid, cid, hcid, rfl, ⟨hnodup, hdeclared⟩, hlength⟩
    exact ⟨hid, hcid, hnodup, hdeclared, hlength⟩
  · rintro ⟨hid, hcid, hnodup, hdeclared, hlength⟩
    exact ⟨hid, c.cid, hcid, rfl, ⟨hnodup, hdeclared⟩, hlength⟩

theorem verifyPublishing_eq_ok_iff :
    c.verifyPublishing p = .ok () ↔
      p.id = c.propId ∧ ∃ outputs, p.spendTemplates c.fees = .ok outputs ∧
        contractId outputs p.id c.createdAt = .ok c.cid ∧
          ∀ t ∈ outputs, c.template? t.label = some t := by
  have htemplate : ∀ t : SpendTemplate, (do
      audit .publishing (c.template? t.label).isSome (.missingTemplate t.label)
      audit .publishing (c.template? t.label = some t) (.otherTemplate t.label)) = .ok () ↔
        c.template? t.label = some t := by
    intro t
    rw [check_bind_eq_ok_iff, audit_eq_ok_iff, audit_eq_ok_iff, decide_eq_true_eq]
    constructor
    · exact And.right
    · intro h
      exact ⟨by rw [h]; rfl, h⟩
  unfold verifyPublishing
  rw [bind_eq_ok_iff]
  simp only [bind_eq_ok_iff (α := Digest), check_bind_eq_ok_iff, audit_eq_ok_iff,
    decide_eq_true_eq, mapError_eq_ok_iff, forM_eq_ok_iff, htemplate]
  constructor
  · rintro ⟨outputs, houtputs, hid, cid, hcid, rfl, hall⟩
    exact ⟨hid, outputs, houtputs, hcid, hall⟩
  · rintro ⟨hid, outputs, houtputs, hcid, hall⟩
    exact ⟨outputs, houtputs, hid, c.cid, hcid, rfl, hall⟩

/-! ## The machine -/

theorem verifyActivation_eq_ok_iff :
    c.verifyActivation m = .ok () ↔
      c.canceled = false ∧ c.activated = true ∧ c.activeAt = some m.activeAt ∧
        c.engineVmid = some m.vmid ∧ m.vmid = c.machineId m.activeAt ∧
          m.activeAt.toNat + c.terms.duration.toNat = m.expiresAt.toNat ∧
            c.expiresAt = some m.expiresAt := by
  unfold verifyActivation
  rw [check_bind_eq_ok_iff, check_bind_eq_ok_iff, mapError_eq_ok_iff, mapError_eq_ok_iff,
    audit_eq_ok_iff, audit_eq_ok_iff, Bool.not_eq_true']
  cases c.activeAt with
  | none => simp
  | some activeAt =>
    cases c.engineVmid with
    | none => simp
    | some vmid =>
      simp only [check_bind_eq_ok_iff, bind_eq_ok_iff (α := UInt64), mapError_eq_ok_iff,
        audit_eq_ok_iff, decide_eq_true_eq, addOrHalt_eq_ok_iff, Option.some.injEq]
      constructor
      · rintro ⟨hcanceled, hactivated, rfl, rfl, hderived, expiresAt, hexpiry, hcexpires, rfl⟩
        exact ⟨hcanceled, hactivated, rfl, rfl, hderived, hexpiry, hcexpires⟩
      · rintro ⟨hcanceled, hactivated, rfl, rfl, hderived, hexpiry, hcexpires⟩
        exact ⟨hcanceled, hactivated, rfl, rfl, hderived, m.expiresAt, hexpiry, hcexpires, rfl⟩

theorem verifyClose_eq_ok_iff :
    c.verifyClose m = .ok () ↔
      m.closed = true ∧ c.closed = true ∧ m.closedAt = c.closedAt ∧ some m.head = c.engineHead ∧
        m.output = c.engineVout ∧
          ∃ config, c.machineConfig = .ok config ∧ m.verifyFromGenesis config = .ok () := by
  unfold verifyClose
  simp only [check_bind_eq_ok_iff, bind_eq_ok_iff (α := MachineConfig), mapError_eq_ok_iff,
    audit_eq_ok_iff, decide_eq_true_eq]

/-! ## Spending and signatures -/

theorem verifySpending_eq_ok_iff :
    c.verifySpending deposits m = .ok () ↔
      c.closed = true ∧ c.spent = true ∧ m.output.isSome = true ∧ m.output = c.engineVout ∧
        ∃ s txid, c.settlement deposits = .ok s ∧ s.txid = .ok txid ∧ c.spentTxid = some txid := by
  unfold verifySpending
  simp only [check_bind_eq_ok_iff, bind_eq_ok_iff (α := Settlement), bind_eq_ok_iff (α := Digest),
    mapError_eq_ok_iff, audit_eq_ok_iff, decide_eq_true_eq]
  constructor
  · rintro ⟨hclosed, hspent, hsome, houtput, s, hs, txid, htxid, hrecorded⟩
    exact ⟨hclosed, hspent, hsome, houtput, s, txid, hs, htxid, hrecorded.symm⟩
  · rintro ⟨hclosed, hspent, hsome, houtput, s, txid, hs, htxid, hrecorded⟩
    exact ⟨hclosed, hspent, hsome, houtput, s, hs, txid, htxid, hrecorded.symm⟩

theorem verifyStatusProof_eq_ok_iff {e : ProofEntry Status} :
    c.verifyStatusProof authority e = .ok () ↔
      ∃ note, c.statusNote e.status = .ok note ∧ verifyProof note e.proof authority = .ok () := by
  unfold verifyStatusProof
  rw [bind_eq_ok_iff]
  simp only [mapError_eq_ok_iff]

/-- A proof is accepted when it is written of the note's own digest and a signature over it. -/
theorem verifyStatusProof_proofText {status : Status} {note : Note} {digest : Digest}
    {sig : Signature} (hnote : c.statusNote status = .ok note) (hpubkey : note.pubkey = authority)
    (hid : note.id = digest) (hverifies : authority.verifies digest sig = true) :
    c.verifyStatusProof authority ⟨status, proofText digest sig⟩ = .ok () := by
  subst hid
  exact verifyStatusProof_eq_ok_iff.2 ⟨note, hnote,
    verifyProof_eq_ok_iff.2 ⟨hpubkey, sig, parseProof_proofText note.id sig, hverifies⟩⟩

/-- A proof that is accepted is the key's own where the key gives its signature. -/
theorem notarized_of_verifyStatusProof {status : Status} {digest : Digest} {sig : Signature}
    {key : KeyPair} (h : c.verifyStatusProof authority ⟨status, proofText digest sig⟩ = .ok ())
    (hsig : key.sign digest = sig) :
    ∃ note, c.statusNote status = .ok note ∧
      ⟨status, proofText digest sig⟩ = notarize status note key := by
  obtain ⟨note, hnote, hproof⟩ := verifyStatusProof_eq_ok_iff.1 h
  obtain ⟨-, _, hparse, -⟩ := verifyProof_eq_ok_iff.1 hproof
  rw [parseProof_proofText, Except.ok.injEq, Prod.mk.injEq] at hparse
  refine ⟨note, hnote, ?_⟩
  show _ = ProofEntry.mk status (proofText note.id (key.sign note.id))
  rw [← hparse.1, hsig]

theorem verifySignatures_eq_ok_iff :
    c.verifySignatures authority = .ok () ↔
      (∀ s ∈ c.reachedStatuses, ∃ e ∈ c.sigs, e.status = s) ∧
        ∀ e ∈ c.sigs, c.verifyStatusProof authority e = .ok () := by
  unfold verifySignatures
  simp only [check_bind_eq_ok_iff, forM_eq_ok_iff, audit_eq_ok_iff, List.any_eq_true,
    decide_eq_true_eq]

theorem verifySettlement_eq_ok_iff :
    c.verifySettlement deposits p m authority = .ok () ↔
      c.verifyData = .ok () ∧ c.verifyPublishing p = .ok () ∧ c.verifyFunding deposits = .ok () ∧
        c.verifyActivation m = .ok () ∧ c.verifyClose m = .ok () ∧
          c.verifySpending deposits m = .ok () ∧ c.verifySignatures authority = .ok () := by
  unfold verifySettlement
  simp only [check_bind_eq_ok_iff, mapError_eq_ok_iff]

end Contract

end JointEscrow
