import JointEscrow.Proofs.Contract.Tabulation

/-!
# Solvency of settlements

Every template of a contract pays out exactly its subtotal, the value with the fees. Funding is
checked against it once, at activation; `spend` takes the deposits that it is given and checks
nothing about them. So a settlement is covered exactly when the deposits it is given are worth the
subtotal, which those that the contract was activated with are (`settlement_solvent_iff`), and a
settlement without any input is signed as well (`bareGift_insolvent`).
-/

namespace JointEscrow

namespace Settlement

/-- The template of the settlement is that of some outputs, and they are what its label pays. -/
def Carries (s : Settlement) (paths : List PathEntry) (payments : List Payment)
    (outs : List TxOutput) : Prop :=
  pathOutputs s.label paths payments = .ok outs ∧ s.template = encodeTemplate outs

/-- The inputs of the settlement are worth at least the outputs. -/
def Solvent (s : Settlement) (outs : List TxOutput) : Prop :=
  exactTotal (outs.map (·.value)) ≤ exactTotal (s.inputs.map (·.value))

end Settlement

namespace Contract

variable {c c₀ : Contract} {key : KeyPair} {options : PublishOptions} {policy : ServerPolicy}
  {r : PublishRequest} {now : UInt64} {ch : Change}

/-- The deposits pass the check of funds that a contract is activated under. -/
def FundedBy (c : Contract) (deposits : List Deposit) : Prop :=
  (c.tabulate deposits).txTotal ≤ (c.tabulate deposits).fundValue

/-! ## The subtotal -/

theorem subtotal_of_create (h : create options policy r key now = .ok ch) :
    ch.contract.subtotal.toNat =
      r.proposal.value.toNat + exactTotal (options.fees.map (·.value)) := by
  obtain ⟨outputs, cid, fees, subtotal, sigs, -, -, hfees, hsubtotal, rfl⟩ := fresh_of_create h
  have hfees := totalOf_eq_ok_iff.1 hfees
  have hsubtotal := totalOf_eq_ok_iff.1 hsubtotal
  rw [exactTotal_cons, exactTotal_cons, exactTotal_nil, Nat.add_zero] at hsubtotal
  rw [hfees, hsubtotal]
  rfl

/-- Each template of a fresh contract pays out the subtotal. -/
theorem paysSubtotal_of_create (h : create options policy r key now = .ok ch) {t : SpendTemplate}
    (ht : t ∈ ch.contract.outputs) :
    ∃ outs, pathOutputs t.label r.proposal.paths (r.proposal.payments ++ options.fees) = .ok outs ∧
      t.bytes = .ok (encodeTemplate outs) ∧
        exactTotal (outs.map (·.value)) = ch.contract.subtotal.toNat := by
  have hsubtotal := subtotal_of_create h
  have hvalid := valid_of_create h
  obtain ⟨outputs, cid, fees, subtotal, sigs, houtputs, -, -, -, rfl⟩ := fresh_of_create h
  have ht : t ∈ outputs := ht
  obtain ⟨outs, houts, hbytes⟩ := bytes_of_spendTemplates houtputs ht
  have hlabel : t.label ∈ pathLabels r.proposal.paths := by
    rw [← labels_of_spendTemplates houtputs]
    exact List.mem_map_of_mem ht
  have htotal := total_of_checkTotals (checkTotals_of_validate hvalid) hlabel
  refine ⟨outs, houts, hbytes, ?_⟩
  rw [exactTotal_of_pathOutputs houts, List.map_append, exactTotal_append, hsubtotal]
  omega

/-! ## The check of funds -/

theorem fundedBy_of_activate {deposits : List Deposit} {time : UInt64} {m : Machine}
    (htabulated : c.Tabulated deposits) (h : c.activate key time = .ok (ch, m)) :
    c.FundedBy deposits := by
  have hcheck := checkActivation_eq_ok_iff.1 (activate_eq_ok_iff.1 h).1
  have htotal : (c.tabulate deposits).txTotal = c.txTotal := congrArg Contract.txTotal htabulated
  have hvalue : (c.tabulate deposits).fundValue = c.fundValue :=
    congrArg Contract.fundValue htabulated
  unfold FundedBy
  rw [htotal, hvalue]
  exact hcheck.2.2.2.2

/-- Deposits that pass the check of funds are worth the subtotal. Neither sum is exact in it: the
one that is needed can only be clamped to more than the subtotal, the one that is there to less than
the deposits. -/
theorem FundedBy.subtotal_le {deposits : List Deposit} (h : c.FundedBy deposits) :
    c.subtotal.toNat ≤ exactTotal (depositValues true deposits) := by
  have hexact := c.cutOff_tabulate deposits
  have hsize := c.subtotal.toNat_lt_size
  unfold FundedBy at h
  rw [UInt64.le_iff_toNat_le, hexact.txTotal, hexact.fundValue] at h
  omega

end Contract

/-! ## Settlements -/

variable {key : KeyPair} {options : PublishOptions} {policy : ServerPolicy} {r : PublishRequest}
  {now start time : UInt64} {published active spent : Change} {s t : Session} {m₀ m : Machine}
  {deposits : List Deposit}

/-- The settlement that is signed pays out the subtotal and takes in the confirmed deposits that it
is given. -/
theorem settlement_of_spend (hcreate : Contract.create options policy r key now = .ok published)
    (hsteps : Session.Steps key (.ofFresh published.contract) s)
    (hspend : s.contract.spend m deposits key time = .ok spent) :
    ∃ st outs, s.contract.settlement deposits = .ok st ∧
      (∃ txid, st.txid = .ok txid ∧ spent.contract.spentTxid = some txid) ∧
        m.output = some st.label ∧
          st.Carries r.proposal.paths (r.proposal.payments ++ options.fees) outs ∧
            st.inputs = (deposits.filter (·.confirmed)).map (·.utxo) ∧
              exactTotal (outs.map (·.value)) = published.contract.subtotal.toNat := by
  have hsound := Session.sound_of_steps (Session.sound_of_create hcreate) hsteps
  obtain ⟨-, -, houtput, st, txid, next, hst, htxid, hrecord, rfl⟩ :=
    Contract.spend_eq_ok_iff.1 hspend
  obtain ⟨-, note, sigs, -, -, rfl⟩ := Contract.recordStatus_eq_ok_iff.1 hrecord
  obtain ⟨-, label, template, bytes, hlabel, htemplate, hbytes, rfl⟩ :=
    Contract.settlement_eq_ok_iff.1 hst
  -- templates are written once, at publication
  have houtputs : s.contract.core.outputs = published.contract.core.outputs :=
    congrArg Contract.outputs hsound.core
  have houtputs : s.contract.outputs = published.contract.outputs := houtputs
  unfold Contract.template? at htemplate
  rw [houtputs] at htemplate
  have hnamed : template.label = label := by simpa using List.find?_some htemplate
  obtain ⟨outs, houts, hencoded, htotal⟩ :=
    Contract.paysSubtotal_of_create hcreate (List.mem_of_find?_eq_some htemplate)
  rw [hnamed] at houts
  cases hbytes.symm.trans hencoded
  exact ⟨_, outs, hst, ⟨txid, htxid, rfl⟩, houtput.trans hlabel, ⟨houts, rfl⟩, rfl, htotal⟩

theorem inputs_values (deposits : List Deposit) :
    ((deposits.filter (·.confirmed)).map (·.utxo)).map (·.value) = depositValues true deposits := by
  unfold depositValues
  rw [List.map_map]
  simp only [Bool.decide_eq_true]
  rfl

/-- Whatever happens before and after the activation, the settlement of a contract is covered by its
inputs exactly when the confirmed deposits that it is given are worth the subtotal. Deposits that pass
the check of funds at activation are, and those that the contract was activated with pass it. -/
theorem settlement_solvent_iff
    (hcreate : Contract.create options policy r key now = .ok published)
    (hbefore : Session.Steps key (.ofFresh published.contract) s)
    (hactivate : s.contract.activate key start = .ok (active, m₀))
    (hafter : Session.Steps key { s with contract := active.contract, machine := some m₀ } t)
    (hspend : t.contract.spend m deposits key time = .ok spent) :
    ∃ st outs, t.contract.settlement deposits = .ok st ∧
      (∃ txid, st.txid = .ok txid ∧ spent.contract.spentTxid = some txid) ∧
        m.output = some st.label ∧
          st.Carries r.proposal.paths (r.proposal.payments ++ options.fees) outs ∧
            st.inputs = (deposits.filter (·.confirmed)).map (·.utxo) ∧
              (st.Solvent outs ↔
                t.contract.subtotal.toNat ≤ exactTotal (depositValues true deposits)) ∧
                (t.contract.FundedBy deposits → st.Solvent outs) ∧
                  t.contract.FundedBy s.deposits := by
  have hsteps := (hbefore.tail (.activate hactivate)).trans hafter
  have hfresh := Session.sound_of_create hcreate
  have hs := Session.sound_of_steps hfresh hbefore
  have ht := Session.sound_of_steps hfresh hsteps
  obtain ⟨st, outs, hst, htxid, houtput, hcarries, hinputs, htotal⟩ :=
    settlement_of_spend hcreate hsteps hspend
  have hsubtotal : t.contract.core.subtotal = published.contract.core.subtotal :=
    congrArg Contract.subtotal ht.core
  have hsubtotal : t.contract.subtotal = published.contract.subtotal := hsubtotal
  have hsolvent : st.Solvent outs ↔
      t.contract.subtotal.toNat ≤ exactTotal (depositValues true deposits) := by
    unfold Settlement.Solvent
    rw [htotal, hinputs, inputs_values, hsubtotal]
  have hfunded : t.contract.FundedBy s.deposits := by
    have hpassed := Contract.fundedBy_of_activate hs.tabulated hactivate
    unfold Contract.FundedBy at hpassed ⊢
    rwa [Contract.tabulate_of_core (ht.core.trans hs.core.symm)]
  exact ⟨st, outs, hst, htxid, houtput, hcarries, hinputs, hsolvent,
    fun h => hsolvent.2 h.subtotal_le, hfunded⟩

/-- The gift that is spent with its deposit is covered. -/
theorem delayedGift_solvent :
    ∃ (run : GiftRun) (st : Settlement) (outs : List TxOutput),
      run.closed.contract.settlement [giftDeposit] = .ok st ∧
        st.Carries delayedGift.paths [] outs ∧ st.Solvent outs := by
  obtain ⟨run⟩ := nonempty_giftRun
  have hsettled := settlement_solvent_iff run.creates run.steps_funded run.activates
    run.steps_closed run.spends
  obtain ⟨st, outs, hst, -, -, hcarries, -, -, hsolvent, hfunded⟩ := hsettled
  exact ⟨run, st, outs, hst, hcarries, hsolvent hfunded⟩

/-- The gift that is spent with no deposit is not, and its settlement is signed all the same. -/
theorem bareGift_insolvent :
    ∃ (run : GiftRun) (st : Settlement) (outs : List TxOutput),
      run.closed.contract.spend run.machine [] escrowKey 20 = .ok run.bare ∧
        run.closed.contract.settlement [] = .ok st ∧
          st.Carries delayedGift.paths [] outs ∧ ¬st.Solvent outs := by
  obtain ⟨run⟩ := nonempty_giftRun
  obtain ⟨st, outs, hst, -, -, hcarries, hinputs, htotal⟩ :=
    settlement_of_spend run.creates run.steps run.spendsBare
  have hsubtotal : run.published.contract.subtotal.toNat = 1000 :=
    Contract.subtotal_of_create run.creates
  refine ⟨run, st, outs, run.spendsBare, hst, hcarries, ?_⟩
  unfold Settlement.Solvent
  rw [htotal, hsubtotal, hinputs]
  decide

end JointEscrow
