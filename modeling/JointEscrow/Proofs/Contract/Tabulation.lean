import JointEscrow.Proofs.Contract.Session
import JointEscrow.Proofs.Contract.Templates
import JointEscrow.Proofs.Payout.Encoding
import JointEscrow.Proofs.Totals

/-!
# Tabulated figures are exact

The sums and products of a tabulation stop at the largest amount one by one, and the price of an
input may itself be a product that was cut off. All of it comes to the same as to compute in whole
numbers and to cut off each result once, so the order of the deposits makes no difference. In a
contract that was published an input costs its size at the rate, and then the fees are the rate
times the size of the whole settlement (`tabulate_exact`).
-/

namespace JointEscrow

/-! ## Cut-off arithmetic -/

/-- A price that was cut off, paid any number of times and cut off again, comes to the exact product
that is cut off once. -/
theorem min_add_mul_min (base count price limit : Nat) :
    min (base + count * min price limit) limit = min (base + count * price) limit := by
  rcases Nat.le_total price limit with hle | hle
  · rw [Nat.min_eq_left hle]
  · rw [Nat.min_eq_right hle]
    cases count with
    | zero => rw [Nat.zero_mul, Nat.zero_mul]
    | succ n =>
      -- one price is already as much as the limit
      have hone : limit ≤ (n + 1) * limit := Nat.le_mul_of_pos_left _ n.succ_pos
      have hall : (n + 1) * limit ≤ (n + 1) * price := Nat.mul_le_mul_left _ hle
      omega

/-- As long as a product is not cut off, dividing it by one factor gives the other, cut off or not.
-/
theorem min_mul_div_min {rate size limit : Nat} (hsize : 0 < size) (h : rate * size ≤ limit) :
    min (rate * size) limit / min size limit = rate := by
  rw [Nat.min_eq_left h]
  rcases Nat.eq_zero_or_pos rate with rfl | hrate
  · rw [Nat.zero_mul, Nat.zero_div]
  · have hfits : size ≤ limit := (Nat.le_mul_of_pos_left size hrate).trans h
    rw [Nat.min_eq_left hfits, Nat.mul_div_cancel _ hsize]

/-! ## Templates and deposits -/

/-- The number of digits of every template is a 64-bit number. -/
def Measured (outputs : List SpendTemplate) : Prop :=
  ∀ t ∈ outputs, (utf8 t.txhex).length < UInt64.size

/-- No template that can be measured is longer than the longest. -/
theorem le_longestTemplate {outputs : List SpendTemplate} (h : Measured outputs)
    {t : SpendTemplate} (ht : t ∈ outputs) :
    (utf8 t.txhex).length / 2 ≤ (longestTemplate outputs).toNat := by
  obtain ⟨longest, hlongest⟩ : ∃ n,
      (outputs.map fun t => (utf8 t.txhex).length / 2).foldl max 0 = n := ⟨_, rfl⟩
  obtain ⟨hmem, hle⟩ :=
    List.max?_eq_some_iff.1 (List.max?_cons'.trans (congrArg some hlongest))
  have hfits : longest < UInt64.size := by
    rcases List.mem_cons.1 hmem with rfl | hmem
    · decide
    · obtain ⟨t', ht', rfl⟩ := List.mem_map.1 hmem
      have hdigits := h t' ht'
      omega
  unfold longestTemplate
  rw [hlongest, UInt64.toNat_ofNat', Nat.mod_eq_of_lt hfits]
  exact hle _ (List.mem_cons_of_mem _ (List.mem_map_of_mem ht))

theorem depositValues_perm {deposits others : List Deposit} (h : deposits.Perm others)
    (confirmed : Bool) : (depositValues confirmed deposits).Perm (depositValues confirmed others) :=
  (h.filter _).map _

theorem sumClamped_perm {values others : List UInt64} (h : values.Perm others) :
    sumClamped values = sumClamped others := by
  rw [← UInt64.toNat_inj, toNat_sumClamped, toNat_sumClamped, exactTotal_perm h]

namespace Contract

variable {c c₀ : Contract} {deposits others : List Deposit}

/-! ## Any contract -/

/-- The size of a settlement: its template, and each input. -/
def exactSize (c : Contract) (deposits : List Deposit) : Nat :=
  (longestTemplate c.outputs).toNat + (c.tabulate deposits).vinCount.toNat * c.txinSize.toNat

/-- The fees of a settlement: its template at the rate, and each input at its price. -/
def exactFees (c : Contract) (deposits : List Deposit) : Nat :=
  (longestTemplate c.outputs).toNat * c.feerate.toNat +
    (c.tabulate deposits).vinCount.toNat * c.vinTxfee.toNat

/-- The figures are the exact ones, each cut off once at the largest amount. Inputs are counted for
as many deposits as 64 bits can count. -/
structure CutOff (c : Contract) (deposits : List Deposit) (t : FundTotals) : Prop where
  vinCount : (depositValues true deposits).length < UInt64.size →
    t.vinCount.toNat = (depositValues true deposits).length
  fundValue : t.fundValue.toNat =
    min (exactTotal (depositValues true deposits)) (UInt64.size - 1)
  fundPend : t.fundPend.toNat =
    min (exactTotal (depositValues false deposits)) (UInt64.size - 1)
  txFees : t.txFees.toNat = min (c.exactFees deposits) (UInt64.size - 1)
  txVsize : t.txVsize.toNat = min (c.exactSize deposits) (UInt64.size - 1)
  txTotal : t.txTotal.toNat =
    min (c.subtotal.toNat + c.exactFees deposits) (UInt64.size - 1)

theorem cutOff_tabulate (c : Contract) (deposits : List Deposit) :
    c.CutOff deposits (c.tabulate deposits) := by
  have hfees : (c.tabulate deposits).txFees.toNat =
      min (c.exactFees deposits) (UInt64.size - 1) := by
    show (addClamped (mulClamped (longestTemplate c.outputs) c.feerate)
      (mulClamped (c.tabulate deposits).vinCount c.vinTxfee)).toNat = _
    rw [toNat_addClamped, toNat_mulClamped, toNat_mulClamped, exactFees]
    omega
  constructor
  case vinCount =>
    intro hfits
    show (UInt64.ofNat (depositValues true deposits).length).toNat = _
    rw [UInt64.toNat_ofNat', Nat.mod_eq_of_lt hfits]
  case fundValue => exact toNat_sumClamped _
  case fundPend => exact toNat_sumClamped _
  case txFees => exact hfees
  case txVsize =>
    have hbound := (longestTemplate c.outputs).toNat_lt_size
    show (addClamped (longestTemplate c.outputs)
      (mulClamped (c.tabulate deposits).vinCount c.txinSize)).toNat = _
    rw [toNat_addClamped, toNat_mulClamped, exactSize]
    omega
  case txTotal =>
    have hbound := c.subtotal.toNat_lt_size
    show (addClamped c.subtotal (c.tabulate deposits).txFees).toNat = _
    rw [toNat_addClamped, hfees]
    omega

theorem tabulate_perm (c : Contract) (h : deposits.Perm others) :
    c.tabulate others = c.tabulate deposits := by
  have hconfirmed := depositValues_perm h true
  have hpending := depositValues_perm h false
  unfold tabulate
  simp only [← h.length_eq, ← hconfirmed.length_eq, ← sumClamped_perm hconfirmed,
    ← sumClamped_perm hpending]

theorem tabulate_of_core (hcore : c.core = c₀.core) (deposits : List Deposit) :
    c.tabulate deposits = c₀.tabulate deposits := by
  change c.core.tabulate deposits = c₀.core.tabulate deposits
  rw [hcore]

/-! ## A published contract -/

/-- An input costs its size at the rate, and there is something to pay out. -/
structure RatedBySize (c : Contract) : Prop where
  vinTxfee : c.vinTxfee.toNat = min (c.txinSize.toNat * c.feerate.toNat) (UInt64.size - 1)
  template : ∃ t ∈ c.outputs, 0 < (utf8 t.txhex).length / 2

theorem RatedBySize.of_core (h : c₀.RatedBySize) (hcore : c.core = c₀.core) : c.RatedBySize := by
  have hc : c₀.core.RatedBySize := ⟨h.vinTxfee, h.template⟩
  rw [← hcore] at hc
  exact ⟨hc.vinTxfee, hc.template⟩

theorem RatedBySize.txFees (h : c.RatedBySize) (deposits : List Deposit) :
    (c.tabulate deposits).txFees.toNat =
      min (c.feerate.toNat * c.exactSize deposits) (UInt64.size - 1) := by
  rw [(c.cutOff_tabulate deposits).txFees, exactFees, h.vinTxfee, min_add_mul_min, exactSize,
    Nat.mul_add, Nat.mul_comm c.feerate.toNat, Nat.mul_left_comm c.feerate.toNat,
    Nat.mul_comm c.feerate.toNat]

theorem RatedBySize.satsVbyte (h : c.RatedBySize) (hmeasured : Measured c.outputs)
    (hfits : c.feerate.toNat * c.exactSize deposits ≤ UInt64.size - 1) :
    (c.tabulate deposits).satsVbyte = c.feerate := by
  obtain ⟨t, ht, hpositive⟩ := h.template
  have hsize : 0 < c.exactSize deposits :=
    (hpositive.trans_le (le_longestTemplate hmeasured ht)).trans_le (Nat.le_add_right _ _)
  show (c.tabulate deposits).txFees / (c.tabulate deposits).txVsize = c.feerate
  rw [← UInt64.toNat_inj, UInt64.toNat_div, h.txFees, (c.cutOff_tabulate deposits).txVsize]
  exact min_mul_div_min hsize hfits

theorem ratedBySize_of_create {options : PublishOptions} {policy : ServerPolicy}
    {r : PublishRequest} {key : KeyPair} {now : UInt64} {ch : Change}
    (h : create options policy r key now = .ok ch) : ch.contract.RatedBySize := by
  -- a valid proposal has a path, and a template is never empty
  obtain ⟨-, -, -, hpaths, -⟩ := Proposal.validate_eq_ok_iff.1 (valid_of_create h)
  obtain ⟨outputs, cid, fees, subtotal, sigs, houtputs, -, -, -, rfl⟩ := fresh_of_create h
  refine ⟨toNat_mulClamped _ _, ?_⟩
  obtain ⟨e, he⟩ := List.exists_mem_of_ne_nil _ hpaths
  have hlabel : e.path ∈ pathLabels r.proposal.paths := mem_pathLabels_iff.2 ⟨e, he, rfl⟩
  obtain ⟨t, ht, htemplate⟩ := exists_mem_of_mem_mapM houtputs hlabel
  obtain ⟨outs, -, rfl⟩ := spendTemplate_eq_ok_iff.1 htemplate
  have hlength := twelve_le_length_encodeTemplate outs
  refine ⟨_, ht, ?_⟩
  rw [Hex.length_utf8_encode]
  omega

/-- Every figure is the exact one cut off once, whatever the order of the deposits. For a contract
that was published, at any time of its life, the fees are also the rate times the size, so as long
as that is not cut off the rate that is paid is the rate of the contract. -/
theorem tabulate_exact (c : Contract) (deposits : List Deposit) :
    c.CutOff deposits (c.tabulate deposits) ∧
      (∀ others, deposits.Perm others → c.tabulate others = c.tabulate deposits) ∧
        ∀ options policy r key now ch, create options policy r key now = .ok ch →
          c.core = ch.contract.core →
            (c.tabulate deposits).txFees.toNat =
                min (c.feerate.toNat * c.exactSize deposits) (UInt64.size - 1) ∧
              (c.feerate.toNat * c.exactSize deposits ≤ UInt64.size - 1 → Measured c.outputs →
                (c.tabulate deposits).satsVbyte = c.feerate) := by
  refine ⟨c.cutOff_tabulate deposits, fun others => c.tabulate_perm, ?_⟩
  intro options policy r key now ch hcreate hcore
  have hrated := (ratedBySize_of_create hcreate).of_core hcore
  exact ⟨hrated.txFees deposits, fun hfits hmeasured => hrated.satsVbyte hmeasured hfits⟩

/-- A gift at the rate of three, with a deposit: 58 bytes of template and 70 of input. -/
theorem hurriedGift_tabulated :
    ∃ ch, create { feerate := some 3 } {} ⟨delayedGift, []⟩ escrowKey 0 = .ok ch ∧
      ch.contract.exactSize [giftDeposit] = 128 ∧
        (ch.contract.tabulate [giftDeposit]).txFees.toNat = 384 ∧
          (ch.contract.tabulate [giftDeposit]).satsVbyte = 3 := by
  have hfacts : (create { feerate := some 3 } {} ⟨delayedGift, []⟩ escrowKey 0).toOption.any
      (fun ch => decide (ch.contract.feerate = 3 ∧ ch.contract.exactSize [giftDeposit] = 128 ∧
        ∀ t ∈ ch.contract.outputs, (utf8 t.txhex).length < UInt64.size)) = true := by
    decide +kernel
  obtain ⟨ch, hcreate, hfacts⟩ := (Option.any_eq_true _ _).1 hfacts
  obtain ⟨hrate, hsize, hmeasured⟩ := of_decide_eq_true hfacts
  have hcreate := toOption_eq_some_iff.1 hcreate
  obtain ⟨-, -, hpublished⟩ := tabulate_exact ch.contract [giftDeposit]
  obtain ⟨hfees, hsats⟩ := hpublished _ _ _ _ _ ch hcreate rfl
  rw [hrate, hsize] at hfees hsats
  exact ⟨ch, hcreate, hsize, hfees, hsats (by decide) hmeasured⟩

end Contract

end JointEscrow
