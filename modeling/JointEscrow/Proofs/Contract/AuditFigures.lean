import JointEscrow.Proofs.Contract.AuditSoundness
import JointEscrow.Proofs.Contract.Solvency

/-!
# The figures of an audited record

The audit tabulates the deposits anew, under the prices that the record states: the subtotal, the
rate, and the size and fee of an input. A record that passes it has exact counts and sums, cut off
once at the largest amount (`figures_of_verifySettlement`). The prices are fixed at publication, and
whether the funds reach the total is asked at activation only: deposits may be reported again after
it, so a contract that is spent with fewer of them passes its audit too (`giftFigures_pass`).
-/

namespace JointEscrow

namespace Contract

variable {c c₀ : Contract} {m : Machine} {p : Proposal} {deposits : List Deposit}
  {authority : PublicKey} {key : KeyPair}

/-! ## Figures and prices -/

/-- The figures of the record are those of the deposits, in exact numbers that are cut off once. -/
structure Figures (c : Contract) (deposits : List Deposit) : Prop where
  fundCount : c.fundCount = UInt64.ofNat deposits.length
  fundPend : c.fundPend.toNat =
    min (exactTotal (depositValues false deposits)) (UInt64.size - 1)
  fundValue : c.fundValue.toNat =
    min (exactTotal (depositValues true deposits)) (UInt64.size - 1)
  vinCount : c.vinCount = UInt64.ofNat (depositValues true deposits).length
  txFees : c.txFees.toNat =
    min ((longestTemplate c.outputs).toNat * c.feerate.toNat +
      c.vinCount.toNat * c.vinTxfee.toNat) (UInt64.size - 1)
  txVsize : c.txVsize.toNat =
    min ((longestTemplate c.outputs).toNat + c.vinCount.toNat * c.txinSize.toNat) (UInt64.size - 1)
  txTotal : c.txTotal.toNat =
    min (c.subtotal.toNat + ((longestTemplate c.outputs).toNat * c.feerate.toNat +
      c.vinCount.toNat * c.vinTxfee.toNat)) (UInt64.size - 1)

/-- The prices of the record are those that its terms, its fees and its rate give. -/
structure Priced (c : Contract) : Prop where
  templates : c.terms.spendTemplates c.fees = .ok c.outputs
  subtotal : c.subtotal.toNat = c.terms.value.toNat + exactTotal (c.fees.map (·.value))
  vinTxfee : c.vinTxfee.toNat = min (c.txinSize.toNat * c.feerate.toNat) (UInt64.size - 1)
  txBsize : c.txBsize = longestTemplate c.outputs

/-- The figures are those of the tabulation, which are exact numbers cut off once. -/
theorem Tabulated.figures (h : c.Tabulated deposits) : c.Figures deposits := by
  have hexact := c.cutOff_tabulate deposits
  have hpend : (c.tabulate deposits).fundPend = c.fundPend := congrArg Contract.fundPend h
  have hvalue : (c.tabulate deposits).fundValue = c.fundValue := congrArg Contract.fundValue h
  have hcount : (c.tabulate deposits).vinCount = c.vinCount := congrArg Contract.vinCount h
  have hfees : (c.tabulate deposits).txFees = c.txFees := congrArg Contract.txFees h
  have hsize : (c.tabulate deposits).txVsize = c.txVsize := congrArg Contract.txVsize h
  have htotal : (c.tabulate deposits).txTotal = c.txTotal := congrArg Contract.txTotal h
  constructor
  case fundCount => exact (congrArg Contract.fundCount h).symm
  case fundPend => rw [← hpend, hexact.fundPend]
  case fundValue => rw [← hvalue, hexact.fundValue]
  case vinCount => exact hcount.symm
  case txFees => rw [← hfees, hexact.txFees, exactFees, hcount]
  case txVsize => rw [← hsize, hexact.txVsize, exactSize, hcount]
  case txTotal => rw [← htotal, hexact.txTotal, exactFees, hcount]

theorem verifyFunding_eq_ok_iff : c.verifyFunding deposits = .ok () ↔ c.Tabulated deposits := by
  refine ⟨?_, Tabulated.verifyFunding⟩
  intro h
  unfold verifyFunding at h
  simp only [forM_eq_ok_iff, audit_eq_ok_iff, decide_eq_true_eq, List.forall_mem_cons] at h
  obtain ⟨hcount, hpend, hvalue, hinputs, hfees, htotal, hsize, -⟩ := h
  unfold Tabulated withTotals
  rw [← hcount, ← hpend, ← hvalue, ← hinputs, ← hfees, ← htotal, ← hsize]

theorem priced_of_create {options : PublishOptions} {policy : ServerPolicy} {r : PublishRequest}
    {now : UInt64} {ch : Change} (h : create options policy r key now = .ok ch) :
    ch.contract.Priced := by
  have hsubtotal := subtotal_of_create h
  obtain ⟨⟨-, htemplates, -⟩, hterms, -⟩ := derived_of_create h
  obtain ⟨outputs, cid, fees, subtotal, sigs, -, -, -, -, rfl⟩ := fresh_of_create h
  exact ⟨htemplates, hsubtotal, toNat_mulClamped _ _, rfl⟩

/-- No operation writes a price. -/
theorem Priced.of_core (h : c₀.Priced) (hcore : c.core = c₀.core) : c.Priced := by
  have hc : c₀.core.Priced := ⟨h.templates, h.subtotal, h.vinTxfee, h.txBsize⟩
  rw [← hcore] at hc
  exact ⟨hc.templates, hc.subtotal, hc.vinTxfee, hc.txBsize⟩

end Contract

/-! ## The activation of a session -/

namespace Session

variable {key : KeyPair} {s t : Session}

/-- Between the two states the contract was activated, with figures of the deposits last reported
whose funds reached the total. -/
def FundedBetween (key : KeyPair) (s t : Session) : Prop :=
  ∃ u time active m₀, Steps key s u ∧ u.contract.activate key time = .ok (active, m₀) ∧
    Steps key { u with contract := active.contract, machine := some m₀ } t ∧
      u.contract.Figures u.deposits ∧ u.contract.txTotal ≤ u.contract.fundValue

/-- Only the activation makes a contract active. -/
theorem activates_of_step (h : Step key s t) (hs : s.contract.activated = false)
    (ht : t.contract.activated = true) :
    ∃ time active m₀, s.contract.activate key time = .ok (active, m₀) ∧
      t = { s with contract := active.contract, machine := some m₀ } := by
  have hkept : ¬ s.contract.activated = true := by simp [hs]
  cases h with
  | fund hfund =>
    obtain ⟨-, -, rfl⟩ := Contract.fund_eq_ok_iff.1 hfund
    exact absurd ht hkept
  | cancel hcancel =>
    obtain ⟨-, -, -, next, hrecord, rfl⟩ := Contract.cancel_eq_ok_iff.1 hcancel
    obtain ⟨-, note, sigs, -, -, rfl⟩ := Contract.recordStatus_eq_ok_iff.1 hrecord
    exact absurd ht hkept
  | activate hactivate => exact ⟨_, _, _, hactivate, rfl⟩
  | input hm haccept => exact absurd ht hkept
  | close hm hclose =>
    obtain ⟨-, -, -, time, next, -, hrecord, rfl⟩ := Contract.close_eq_ok_iff.1 hclose
    obtain ⟨-, note, sigs, -, -, rfl⟩ := Contract.recordStatus_eq_ok_iff.1 hrecord
    exact absurd ht hkept
  | spend hm hspend =>
    obtain ⟨-, -, -, _, txid, next, -, -, hrecord, rfl⟩ := Contract.spend_eq_ok_iff.1 hspend
    obtain ⟨-, note, sigs, -, -, rfl⟩ := Contract.recordStatus_eq_ok_iff.1 hrecord
    exact absurd ht hkept
  | settle hsettle =>
    obtain ⟨-, next, hrecord, rfl⟩ := Contract.settle_eq_ok_iff.1 hsettle
    obtain ⟨-, note, sigs, -, -, rfl⟩ := Contract.recordStatus_eq_ok_iff.1 hrecord
    exact absurd ht hkept

/-- A contract that has become active was activated with the funds for it. -/
theorem fundedBetween_of_steps {c₀ : Contract} (hsound : Sound key c₀ s) (hsteps : Steps key s t)
    (hs : s.contract.activated = false) (ht : t.contract.activated = true) :
    FundedBetween key s t := by
  induction hsteps with
  | refl => exact absurd (hs.symm.trans ht) Bool.false_ne_true
  | @tail u t hsteps hstep ih =>
    by_cases hu : u.contract.activated = true
    · obtain ⟨u₀, time, active, m₀, hbefore, hactivate, hafter, hfunded⟩ := ih hu
      exact ⟨u₀, time, active, m₀, hbefore, hactivate, hafter.tail hstep, hfunded⟩
    · obtain ⟨time, active, m₀, hactivate, rfl⟩ :=
        activates_of_step hstep (by simpa using hu) ht
      have hgate := Contract.checkActivation_eq_ok_iff.1 (Contract.activate_eq_ok_iff.1 hactivate).1
      have hfigures := (sound_of_steps hsound hsteps).tabulated.figures
      exact ⟨u, time, active, m₀, hsteps, hactivate, .refl, hfigures, hgate.2.2.2.2⟩

end Session

/-! ## The audit -/

namespace Contract

variable {c : Contract} {m : Machine} {p : Proposal} {deposits : List Deposit}
  {authority : PublicKey}

/-- The figures of a record of any origin that passes the audit are those of the deposits, under the
prices that it states. Where the operations have written it, the prices are those that the terms,
the fees and the rate give, and when it was activated the funds reached the total. -/
theorem figures_of_verifySettlement
    (h : c.verifySettlement deposits p m authority = .ok ()) :
    c.Figures deposits ∧
      ∀ options policy r key now published s, create options policy r key now = .ok published →
        Session.Steps key (.ofFresh published.contract) s → s.contract = c →
          c.Priced ∧ Session.FundedBetween key (.ofFresh published.contract) s := by
  obtain ⟨-, -, hfunding, hactivation, -⟩ := verifySettlement_eq_ok_iff.1 h
  refine ⟨(verifyFunding_eq_ok_iff.1 hfunding).figures, ?_⟩
  rintro options policy r key now published s hcreate hsteps rfl
  have hfresh := Session.sound_of_create hcreate
  have hsound := Session.sound_of_steps hfresh hsteps
  have hactivated : s.contract.activated = true := (verifyActivation_eq_ok_iff.1 hactivation).2.1
  have hpublished : published.contract.activated = false := by
    obtain ⟨-, outputs, cid, fees, subtotal, next, -, -, -, -, -, hrecord, rfl⟩ :=
      create_eq_ok_iff.1 hcreate
    obtain ⟨-, note, sigs, -, -, rfl⟩ := recordStatus_eq_ok_iff.1 hrecord
    rfl
  exact ⟨(priced_of_create hcreate).of_core hsound.core,
    Session.fundedBetween_of_steps hfresh hsteps hpublished hactivated⟩

/-- The gift passes its audit. It is the record that the operations write, with the prices of its
terms, and it was activated with the funds for it. -/
theorem spentGift_figures :
    spentGift.verifySettlement [giftDeposit] delayedGift giftMachine giftServer = .ok () ∧
      spentGift.Figures [giftDeposit] ∧
        ∃ run : GiftRun, run.spent.contract = spentGift ∧ spentGift.Priced ∧
          Session.FundedBetween escrowKey (.ofFresh run.published.contract)
            ⟨run.spent.contract, some run.machine, [giftDeposit]⟩ := by
  obtain ⟨run⟩ := nonempty_giftRun
  obtain ⟨hfigures, hwritten⟩ := figures_of_verifySettlement verifySettlement_spentGift
  have hrun := hwritten _ _ _ _ _ _ _ run.creates run.steps_spent run.spent_eq
  exact ⟨verifySettlement_spentGift, hfigures, run, run.spent_eq, hrun⟩

/-! ### What the audit does not ask -/

/-- The record with other prices and the figures that they give. -/
def repriced (c : Contract) (subtotal vinTxfee txBsize : UInt64) (deposits : List Deposit) :
    Contract :=
  let c := { c with subtotal := subtotal, vinTxfee := vinTxfee, txBsize := txBsize }
  c.withTotals (c.tabulate deposits)

/-- The audit takes the prices as they are stated. -/
theorem verifySettlement_repriced {subtotal vinTxfee txBsize : UInt64}
    (h : c.verifySettlement deposits p m authority = .ok ()) :
    (c.repriced subtotal vinTxfee txBsize deposits).verifySettlement deposits p m authority =
      .ok () := by
  obtain ⟨hdata, hpublishing, -, hactivation, hclose, hspending, hsignatures⟩ :=
    verifySettlement_eq_ok_iff.1 h
  have hfunding : (c.repriced subtotal vinTxfee txBsize deposits).Tabulated deposits := rfl
  exact verifySettlement_eq_ok_iff.2 ⟨hdata, hpublishing, hfunding.verifyFunding, hactivation,
    hclose, hspending, hsignatures⟩

end Contract

/-- The gift when its deposit was withdrawn from the report after the machine closed, and it was
spent without any. -/
def unfundedGift : Contract :=
  { spentGift with
    fundCount := 0
    fundValue := 0
    sigs := spentGift.sigs.take 3 ++ [⟨.spent, proofText
      (.ofNat 0x300fe05efc85f74f522c68cf585c75dcef36128d2de06c65528aaa7662cdf3e4)
      (signatureOf 0x82bb811b2c3f39fc6c7d713bbf9448323fd99eb1d34019c6b00da6c0f443bf10
        0x55f513e86dc2c80f22bfb3b2a3f3d4e0bd09d03e0f50be11327edeba1fcef60e)⟩]
    spentTxid := some (.ofNat 0x400234030b243118813cf12d083cdd82b0a920573636314a658f9072dc12f492)
    txFees := 58
    txTotal := 1058
    txVsize := 58
    vinCount := 0 }

namespace Contract

/-- Only the note about the spending names what is spent. -/
theorem statusNote_unfundedGift {status : Status} (h : status ≠ .spent) :
    unfundedGift.statusNote status = spentGift.statusNote status := by
  cases status with
  | spent => exact absurd rfl h
  | _ => rfl

theorem verifySignatures_unfundedGift : unfundedGift.verifySignatures giftServer = .ok () := by
  have hproofs := (verifySignatures_eq_ok_iff.1 verifySignatures_spentGift).2
  refine verifySignatures_eq_ok_iff.2 ⟨by decide +kernel, ?_⟩
  intro e he
  rcases List.mem_append.1 he with he | he
  · have hearlier : ∀ e ∈ spentGift.sigs.take 3, e.status ≠ .spent := by decide +kernel
    have hproof := hproofs e (List.mem_of_mem_take he)
    rw [verifyStatusProof_eq_ok_iff] at hproof ⊢
    rwa [statusNote_unfundedGift (hearlier e he)]
  · obtain rfl := List.mem_singleton.1 he
    refine verifyStatusProof_proofText rfl rfl ((id_ofStatus _ _ _ _).trans ?_) (by decide +kernel)
    simp only [Json.render, Json.renderItems, Json.renderMembers, Json.compact, Digest.hex,
      PublicKey.hex, Hex.encode, Json.renderText_ofList]
    decide +kernel

theorem verifySettlement_unfundedGift :
    unfundedGift.verifySettlement [] delayedGift giftMachine giftServer = .ok () := by
  have hderived : unfundedGift.Derived := derived_spentGift.of_core rfl
  refine verifySettlement_eq_ok_iff.2 ⟨hderived.verifyData, hderived.verifyPublishing, ?_, ?_, ?_,
    ?_, verifySignatures_unfundedGift⟩
  all_goals exact toOption_eq_some_iff.1 (by decide +kernel)

/-- A gift without funds passes its audit, and so does one with prices of its own making. -/
theorem giftFigures_pass :
    (unfundedGift.verifySettlement [] delayedGift giftMachine giftServer = .ok () ∧
      unfundedGift.fundValue < unfundedGift.txTotal) ∧
        ∃ c : Contract,
          c.verifySettlement [giftDeposit] delayedGift giftMachine giftServer = .ok () ∧
            c.subtotal.toNat ≠ c.terms.value.toNat + exactTotal (c.fees.map (·.value)) ∧
              c.vinTxfee.toNat ≠ min (c.txinSize.toNat * c.feerate.toNat) (UInt64.size - 1) ∧
                c.txBsize ≠ longestTemplate c.outputs := by
  refine ⟨⟨verifySettlement_unfundedGift, by decide⟩, spentGift.repriced 1 0 0 [giftDeposit],
    verifySettlement_repriced verifySettlement_spentGift, ?_, ?_, ?_⟩
  · decide
  · decide
  · show (0 : UInt64) ≠ longestTemplate spentGift.outputs
    decide +kernel

end Contract

end JointEscrow
