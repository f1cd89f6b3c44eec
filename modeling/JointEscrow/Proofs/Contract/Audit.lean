import JointEscrow.Proofs.Contract.AuditStages
import JointEscrow.Proofs.Contract.Session

/-!
# Honest contracts pass the audit

The audit computes every derived value of a record anew. Here each of its stages is reduced to what
a record must satisfy, and a session satisfies all of it: whatever was reported, endorsed and waited
for on the way, a contract that its authority closes and spends with the machine and the deposits of
the session passes the full audit, as long as the authority's signatures verify
(`spent_passes_audit_iff`).
-/

namespace JointEscrow

namespace Contract

variable {c : Contract} {m : Machine} {p : Proposal} {deposits : List Deposit} {key : KeyPair}

/-! ## Identifiers and templates -/

/-- The identifiers and templates of the record are those that its own terms give. -/
def Derived (c : Contract) : Prop :=
  c.propId = c.terms.id ∧ c.terms.spendTemplates c.fees = .ok c.outputs ∧
    contractId c.outputs c.terms.id c.createdAt = .ok c.cid

theorem Derived.verifyData (h : c.Derived) : c.verifyData = .ok () := by
  obtain ⟨hprop, htemplates, hcid⟩ := h
  have hlabels := labels_of_spendTemplates htemplates
  refine verifyData_eq_ok_iff.2 ⟨hprop.symm, hcid, ?_, ?_, ?_⟩
  · rw [hlabels]
    exact nodup_pathLabels _
  · intro t ht
    rw [← hlabels]
    exact List.mem_map_of_mem ht
  · rw [← hlabels, List.length_map]

theorem template?_of_mem (hnodup : (c.outputs.map (·.label)).Nodup) {t : SpendTemplate}
    (ht : t ∈ c.outputs) : c.template? t.label = some t := by
  unfold template?
  generalize c.outputs = templates at hnodup ht
  induction templates with
  | nil => cases ht
  | cons a r ih =>
    rw [List.map_cons, List.nodup_cons] at hnodup
    rcases List.mem_cons.1 ht with rfl | ht
    · simp
    · have hne : a.label ≠ t.label := fun heq => hnodup.1 (heq ▸ List.mem_map_of_mem ht)
      rw [List.find?_cons_of_neg (by simpa using hne)]
      exact ih hnodup.2 ht

theorem Derived.verifyPublishing (h : c.Derived) : c.verifyPublishing c.terms = .ok () := by
  obtain ⟨hprop, htemplates, hcid⟩ := h
  have hnodup : (c.outputs.map (·.label)).Nodup := by
    rw [labels_of_spendTemplates htemplates]
    exact nodup_pathLabels _
  -- labels are distinct, so a look-up by label finds the template itself
  exact verifyPublishing_eq_ok_iff.2
    ⟨hprop.symm, c.outputs, htemplates, hcid, fun t ht => template?_of_mem hnodup ht⟩

/-! ## Figures -/

theorem Tabulated.verifyFunding (h : c.Tabulated deposits) : c.verifyFunding deposits = .ok () := by
  unfold Contract.verifyFunding
  rw [forM_eq_ok_iff]
  intro figure hfigure
  rw [audit_eq_ok_iff, decide_eq_true_eq]
  simp only [List.mem_cons, List.not_mem_nil, or_false] at hfigure
  rcases hfigure with rfl | rfl | rfl | rfl | rfl | rfl | rfl
  · exact (congrArg Contract.fundCount h).symm
  · exact (congrArg Contract.fundPend h).symm
  · exact (congrArg Contract.fundValue h).symm
  · exact (congrArg Contract.vinCount h).symm
  · exact (congrArg Contract.txFees h).symm
  · exact (congrArg Contract.txTotal h).symm
  · exact (congrArg Contract.txVsize h).symm

/-! ## The machine -/

theorem Operates.fixed (h : c.Operates m) :
    ∃ config, c.machineConfig = .ok config ∧ m.verifyFromGenesis config = .ok () ∧
      m.vmid = c.machineId m.activeAt ∧
        m.activeAt.toNat + c.terms.duration.toNat = m.expiresAt.toNat ∧
          c.activeAt = some m.activeAt ∧ c.expiresAt = some m.expiresAt ∧
            c.engineVmid = some m.vmid := by
  obtain ⟨config, m₀, inputs, hconfig, hstart, hrun, hvmid, hexpiry⟩ := h
  obtain ⟨hactive, hexpires, hengine, -⟩ := machineConfig_eq_ok_iff.1 hconfig
  have hinit := (check_bind_eq_ok_iff.1 hstart).2
  have hlog := Machine.verifyFromGenesis_of_replay hinit hrun
  have hfixed := Machine.fixed_of_replay hrun
  obtain ⟨paths, -, -, hm₀⟩ := Machine.init_eq_ok hinit
  -- the machine keeps what its activation has fixed, whatever it was given
  have hmvmid : m.vmid = config.vmid := by
    rw [show m.vmid = m₀.vmid from congrArg (fun f => f.1) hfixed, hm₀]
  have hmactive : m.activeAt = config.activeAt := by
    rw [show m.activeAt = m₀.activeAt from congrArg (fun f => f.2.2.1) hfixed, hm₀]
  have hmexpires : m.expiresAt = config.expiresAt := by
    rw [show m.expiresAt = m₀.expiresAt from congrArg (fun f => f.2.2.2.1) hfixed, hm₀]
  rw [hmvmid, hmactive, hmexpires]
  exact ⟨config, hconfig, hlog, hvmid, hexpiry, hactive, hexpires, hengine⟩

theorem Operates.verifyActivation (h : c.Operates m) (hcanceled : c.canceled = false)
    (hactivated : c.activated = true) : c.verifyActivation m = .ok () := by
  obtain ⟨config, -, -, hvmid, hexpiry, hactive, hexpires, hengine⟩ := h.fixed
  exact verifyActivation_eq_ok_iff.2
    ⟨hcanceled, hactivated, hactive, hengine, hvmid, hexpiry, hexpires⟩

theorem Operates.verifyClose (h : c.Operates m) (hclosed : c.closed = true)
    (hconcluded : c.ConcludedBy m) : c.verifyClose m = .ok () := by
  obtain ⟨config, hconfig, hlog, -⟩ := h.fixed
  obtain ⟨hmclosed, htime, hhead, houtput⟩ := hconcluded
  exact verifyClose_eq_ok_iff.2 ⟨hmclosed, hclosed, htime, hhead, houtput, config, hconfig, hlog⟩

/-! ## The settlement -/

/-- The contract is spent, with the settlement of the deposits as the machine decided it. -/
def SpentBy (c : Contract) (deposits : List Deposit) (m : Machine) : Prop :=
  (c.status = .spent ∨ c.status = .settled) ∧ m.output.isSome = true ∧
    ∃ s txid, c.settlement deposits = .ok s ∧ s.txid = .ok txid ∧ c.spentTxid = some txid

theorem settlement_congr {n : Contract} (hclosed : n.closed = c.closed)
    (houtput : n.engineVout = c.engineVout) (houtputs : n.outputs = c.outputs)
    (deposits : List Deposit) : n.settlement deposits = c.settlement deposits := by
  unfold settlement template?
  rw [hclosed, houtput, houtputs]

theorem spentBy_of_spend {time : UInt64} {ch : Change}
    (h : c.spend m deposits key time = .ok ch) : ch.contract.SpentBy deposits m := by
  obtain ⟨-, hsome, -, s, txid, next, hs, htxid, hrecord, rfl⟩ := spend_eq_ok_iff.1 h
  obtain ⟨-, note, sigs, -, -, rfl⟩ := recordStatus_eq_ok_iff.1 hrecord
  have hsame : ((c.paid txid time).signed sigs).settlement deposits = c.settlement deposits :=
    settlement_congr rfl rfl rfl deposits
  exact ⟨.inl rfl, hsome, s, txid, hsame.trans hs, htxid, rfl⟩

theorem SpentBy.settle {time : UInt64} {ch : Change} (h : c.SpentBy deposits m)
    (hsettle : c.settle key time = .ok ch) : ch.contract.SpentBy deposits m := by
  obtain ⟨-, hsome, s, txid, hs, htxid, hrecorded⟩ := h
  obtain ⟨-, next, hrecord, rfl⟩ := settle_eq_ok_iff.1 hsettle
  obtain ⟨-, note, sigs, -, -, rfl⟩ := recordStatus_eq_ok_iff.1 hrecord
  have hsame : ((c.finished time).signed sigs).settlement deposits = c.settlement deposits :=
    settlement_congr rfl rfl rfl deposits
  exact ⟨.inr rfl, hsome, s, txid, hsame.trans hs, htxid, hrecorded⟩

theorem SpentBy.verifySpending (h : c.SpentBy deposits m) (hclosed : c.closed = true)
    (hspent : c.spent = true) (hconcluded : c.ConcludedBy m) :
    c.verifySpending deposits m = .ok () := by
  obtain ⟨-, hsome, s, txid, hs, htxid, hrecorded⟩ := h
  exact verifySpending_eq_ok_iff.2
    ⟨hclosed, hspent, hsome, hconcluded.2.2.2, s, txid, hs, htxid, hrecorded⟩

/-! ## A session -/

theorem Derived.of_core {c₀ : Contract} (h : c₀.Derived) (hcore : c.core = c₀.core) :
    c.Derived := by
  have hc : c₀.core.Derived := h
  rw [← hcore] at hc
  exact hc

theorem derived_of_create {options : PublishOptions} {policy : ServerPolicy} {r : PublishRequest}
    {now : UInt64} {ch : Change} (h : create options policy r key now = .ok ch) :
    ch.contract.Derived ∧ ch.contract.terms = r.proposal ∧
      ch.contract.serverPk = key.publicKey := by
  obtain ⟨outputs, cid, fees, subtotal, sigs, houtputs, hcid, -, -, rfl⟩ := fresh_of_create h
  exact ⟨⟨rfl, houtputs, hcid⟩, rfl, rfl⟩

end Contract

namespace Session

variable {key : KeyPair} {c₀ : Contract} {s : Session} {m : Machine}

/-- A session whose contract is spent passes every stage of the audit but the last one as it is, and
the last one under the signatures of its own notes. -/
theorem Sound.verifySettlement_iff (h : Sound key c₀ s) (hderived : c₀.Derived)
    (hauthority : c₀.serverPk = key.publicKey) (hmachine : s.machine = some m)
    (hspent : s.contract.SpentBy s.deposits m) :
    s.contract.verifySettlement s.deposits c₀.terms m key.publicKey = .ok () ↔
      ∀ status ∈ s.contract.reachedStatuses, ∀ note, s.contract.statusNote status = .ok note →
        key.publicKey.verifies note.id (key.sign note.id) = true := by
  have hflags := h.standing.flags
  have hcanceled : s.contract.flag .canceled = false := by
    rw [hflags]
    rcases hspent.1 with hstatus | hstatus <;> rw [hstatus] <;> rfl
  have hreached : ∀ status ∈ [Status.active, .closed, .spent], s.contract.flag status = true := by
    intro status hmem
    rw [hflags, decide_eq_true_eq]
    rcases hspent.1 with hstatus | hstatus <;> rw [hstatus] <;> revert status <;> decide
  have hactivated : s.contract.activated = true := hreached .active (by decide)
  have hclosed : s.contract.closed = true := hreached .closed (by decide)
  obtain ⟨m₁, hm₁, hoperates⟩ := h.operates hactivated
  cases hmachine.symm.trans hm₁
  obtain ⟨m₂, hm₂, hconcluded⟩ := h.concluded hclosed
  cases hmachine.symm.trans hm₂
  have hcurrent := hderived.of_core h.core
  have hterms : s.contract.core.terms = c₀.core.terms := congrArg Contract.terms h.core
  have hterms : c₀.terms = s.contract.terms := hterms.symm
  have hpk : s.contract.core.serverPk = c₀.core.serverPk := congrArg Contract.serverPk h.core
  have hpk : s.contract.serverPk = key.publicKey := hpk.trans hauthority
  rw [← h.standing.verifySignatures_iff hpk, hterms, Contract.verifySettlement_eq_ok_iff]
  constructor
  · rintro ⟨-, -, -, -, -, -, hsignatures⟩
    exact hsignatures
  · intro hsignatures
    exact ⟨hcurrent.verifyData, hcurrent.verifyPublishing, h.tabulated.verifyFunding,
      hoperates.verifyActivation hcanceled hactivated, hoperates.verifyClose hclosed hconcluded,
      hspent.verifySpending hclosed (hreached .spent (by decide)) hconcluded, hsignatures⟩

end Session

/-- A contract that its authority publishes, activates, closes and spends with its machine and the
deposits last reported, in whatever way it came there, passes the full audit when it is spent and
when it has settled: nothing can fail it but a signature of the key over a note of the record that
does not verify under the key. -/
theorem spent_passes_audit_iff {options : PublishOptions} {policy : ServerPolicy}
    {r : PublishRequest} {key : KeyPair} {now time : UInt64} {published spent : Change}
    {s : Session} {m : Machine} {c : Contract}
    (hcreate : Contract.create options policy r key now = .ok published)
    (hsteps : Session.Steps key (.ofFresh published.contract) s) (hmachine : s.machine = some m)
    (hspend : s.contract.spend m s.deposits key time = .ok spent)
    (hend : c = spent.contract ∨
      ∃ later settled, spent.contract.settle key later = .ok settled ∧ c = settled.contract) :
    c.verifySettlement s.deposits r.proposal m key.publicKey = .ok () ↔
      ∀ status ∈ c.reachedStatuses, ∀ note, c.statusNote status = .ok note →
        key.publicKey.verifies note.id (key.sign note.id) = true := by
  obtain ⟨hderived, hterms, hauthority⟩ := Contract.derived_of_create hcreate
  have hsound := Session.sound_of_steps (Session.sound_of_create hcreate) hsteps
  have hsound₁ := hsound.step (.spend hmachine hspend)
  have hspent₁ := Contract.spentBy_of_spend hspend
  rw [← hterms]
  rcases hend with rfl | ⟨later, settled, hsettle, rfl⟩
  · exact hsound₁.verifySettlement_iff hderived hauthority hmachine hspent₁
  · have hsound₂ := hsound₁.step (.settle hsettle)
    have hspent₂ := hspent₁.settle hsettle
    exact hsound₂.verifySettlement_iff hderived hauthority hmachine hspent₂

/-- The gift is spent with the deposit that it was funded with, and its audit comes down to the
signatures. -/
theorem delayedGift_passes_audit_iff :
    ∃ run : GiftRun,
      run.spent.contract.verifySettlement [giftDeposit] delayedGift run.machine
          escrowKey.publicKey = .ok () ↔
        ∀ status ∈ run.spent.contract.reachedStatuses, ∀ note,
          run.spent.contract.statusNote status = .ok note →
            escrowKey.publicKey.verifies note.id (escrowKey.sign note.id) = true := by
  obtain ⟨run⟩ := nonempty_giftRun
  have haudit := spent_passes_audit_iff run.creates run.steps rfl run.spends (.inl rfl)
  exact ⟨run, haudit⟩

end JointEscrow
