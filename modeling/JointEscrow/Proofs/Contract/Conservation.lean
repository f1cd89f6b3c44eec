import JointEscrow.Proofs.Contract.Audit
import JointEscrow.Proofs.Contract.Solvency
import JointEscrow.Proofs.Payout.Encoding

/-!
# Value is conserved

A template is read as the outputs that it encodes, and they add up to the subtotal of the contract:
the value of the terms with the fees, neither more nor less on any path. Funds are compared with
that amount in sums that stop at the largest amount, and yet a contract that is activated has
deposits worth all that any of its templates pays out (`value_is_conserved`).
-/

namespace JointEscrow

/-- The template is the encoding of outputs worth the amount. Where they can be counted in four
bytes, it is the encoding of no others. -/
def SpendTemplate.PaysOut (t : SpendTemplate) (amount : Nat) : Prop :=
  ∃ outs, t.bytes = .ok (encodeTemplate outs) ∧ exactTotal (outs.map (·.value)) = amount ∧
    (outs.length < 2 ^ 32 →
      ∀ others, Writable others → t.bytes = .ok (encodeTemplate others) → others = outs)

namespace Contract

variable {key key' : KeyPair} {options : PublishOptions} {policy : ServerPolicy}
  {r : PublishRequest} {now start : UInt64} {published active : Change} {s : Session} {m : Machine}

theorem paysOut_of_create (hcreate : create options policy r key now = .ok published)
    {t : SpendTemplate} (ht : t ∈ published.contract.outputs) :
    t.PaysOut published.contract.subtotal.toNat := by
  obtain ⟨outs, houts, hbytes, htotal⟩ := paysSubtotal_of_create hcreate ht
  refine ⟨outs, hbytes, htotal, ?_⟩
  intro hcount others hothers hbytes'
  have hsame : encodeTemplate others = encodeTemplate outs :=
    Except.ok.inj (hbytes'.symm.trans hbytes)
  exact encodeTemplate_injective hothers (writable_of_pathOutputs houts hcount) hsame

/-- The templates and the subtotal are those of the publication all along. -/
theorem core_of_activate (hcreate : create options policy r key now = .ok published)
    (hsteps : Session.Steps key (.ofFresh published.contract) s)
    (hactivate : s.contract.activate key' start = .ok (active, m)) :
    active.contract.core = published.contract.core := by
  have hsound := Session.sound_of_steps (Session.sound_of_create hcreate) hsteps
  obtain ⟨-, expiresAt, config, next, -, -, -, hrecord, rfl⟩ := activate_eq_ok_iff.1 hactivate
  obtain ⟨-, note, sigs, -, -, rfl⟩ := recordStatus_eq_ok_iff.1 hrecord
  exact hsound.core

/-- Deposits that a contract is activated with are worth its subtotal, as exact numbers. -/
theorem subtotal_le_of_activate (hcreate : create options policy r key now = .ok published)
    (hsteps : Session.Steps key (.ofFresh published.contract) s)
    (hactivate : s.contract.activate key' start = .ok (active, m)) :
    published.contract.subtotal.toNat ≤ exactTotal (depositValues true s.deposits) := by
  have hsound := Session.sound_of_steps (Session.sound_of_create hcreate) hsteps
  have hfunded : s.contract.FundedBy s.deposits :=
    fundedBy_of_activate hsound.tabulated hactivate
  have hsubtotal : s.contract.core.subtotal = published.contract.core.subtotal :=
    congrArg Contract.subtotal hsound.core
  have hsubtotal : s.contract.subtotal = published.contract.subtotal := hsubtotal
  rw [← hsubtotal]
  exact hfunded.subtotal_le

/-- Every template of a contract pays out the value of its terms with the fees. Whatever deposits
are reported to a contract, it is activated only when the confirmed ones of the last report
(`s.deposits`) are worth what any of its templates pays out. -/
theorem value_is_conserved (hcreate : create options policy r key now = .ok published) :
    published.contract.subtotal.toNat =
        published.contract.terms.value.toNat + exactTotal (options.fees.map (·.value)) ∧
      (∀ t ∈ published.contract.outputs, t.PaysOut published.contract.subtotal.toNat) ∧
        ∀ s key' start active m, Session.Steps key (.ofFresh published.contract) s →
          s.contract.activate key' start = .ok (active, m) →
            ∀ t ∈ active.contract.outputs,
              ∃ amount, t.PaysOut amount ∧ amount ≤ exactTotal (depositValues true s.deposits) := by
  refine ⟨?_, ?_, ?_⟩
  · obtain ⟨-, hterms, -⟩ := derived_of_create hcreate
    rw [hterms]
    exact subtotal_of_create hcreate
  · intro t ht
    exact paysOut_of_create hcreate ht
  · intro s key' start active m hsteps hactivate t ht
    have houtputs : active.contract.core.outputs = published.contract.core.outputs :=
      congrArg Contract.outputs (core_of_activate hcreate hsteps hactivate)
    have ht : t ∈ active.contract.core.outputs := ht
    rw [houtputs] at ht
    exact ⟨_, paysOut_of_create hcreate ht, subtotal_le_of_activate hcreate hsteps hactivate⟩

/-- The gift pays out its 1000, and it is activated with a deposit of 2000. -/
theorem delayedGift_conserves_value :
    ∃ run : GiftRun, run.published.contract.subtotal.toNat = 1000 ∧
      (∀ t ∈ run.published.contract.outputs, t.PaysOut 1000) ∧
        ∀ t ∈ run.active.contract.outputs, ∃ amount, t.PaysOut amount ∧ amount ≤ 2000 := by
  obtain ⟨run⟩ := nonempty_giftRun
  obtain ⟨-, hpays, hfunded⟩ := value_is_conserved run.creates
  have hsubtotal : run.published.contract.subtotal.toNat = 1000 := subtotal_of_create run.creates
  refine ⟨run, hsubtotal, ?_, ?_⟩
  · rwa [hsubtotal] at hpays
  · exact hfunded _ _ _ _ _ run.steps_funded run.activates

end Contract

end JointEscrow
