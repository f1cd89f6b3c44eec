import JointEscrow.Contract.Funds
import JointEscrow.Payout.PathOutputs
import JointEscrow.Proofs.Terms.Validity

/-!
# Exact totals

What amounts add up to as natural numbers. A checked sum is the exact total or nothing, a clamped
one the smaller of the exact total and the largest amount, and the outputs of a path carry the
values of its entries and of the payments, so that a valid proposal pays its value on every path.
-/

namespace JointEscrow

/-- The exact total of amounts. -/
def exactTotal : List UInt64 → Nat
  | [] => 0
  | v :: r => v.toNat + exactTotal r

@[simp] theorem exactTotal_nil : exactTotal [] = 0 := rfl

@[simp] theorem exactTotal_cons (v : UInt64) (r : List UInt64) :
    exactTotal (v :: r) = v.toNat + exactTotal r := rfl

@[simp] theorem exactTotal_append (l r : List UInt64) :
    exactTotal (l ++ r) = exactTotal l + exactTotal r := by
  induction l with
  | nil => simp
  | cons v l ih => rw [List.cons_append, exactTotal_cons, exactTotal_cons, ih, Nat.add_assoc]

theorem exactTotal_perm {l r : List UInt64} (h : l.Perm r) : exactTotal l = exactTotal r := by
  induction h with
  | nil => rfl
  | cons v _ ih => rw [exactTotal_cons, exactTotal_cons, ih]
  | swap v w l =>
    rw [exactTotal_cons, exactTotal_cons, exactTotal_cons, exactTotal_cons]
    omega
  | trans _ _ ih₁ ih₂ => exact ih₁.trans ih₂

/-! ## Sums -/

theorem foldlM_addChecked_eq_some_iff {values : List UInt64} {start total : UInt64} :
    values.foldlM addChecked start = some total ↔
      start.toNat + exactTotal values = total.toNat := by
  induction values generalizing start with
  | nil =>
    rw [List.foldlM_nil, exactTotal_nil, Nat.add_zero, UInt64.toNat_inj]
    exact Option.some_inj
  | cons v r ih =>
    rw [List.foldlM_cons, exactTotal_cons, Option.bind_eq_bind, Option.bind_eq_some_iff]
    constructor
    · rintro ⟨next, hnext, hrest⟩
      have hnext := addChecked_eq_some_iff.1 hnext
      have hrest := ih.1 hrest
      omega
    · intro h
      -- the first partial sum fits because the whole does
      have hsize := total.toNat_lt_size
      have hfits : start.toNat + v.toNat < UInt64.size := by omega
      have hnext : start.toNat + v.toNat = (start + v).toNat := by
        rw [UInt64.toNat_add]
        exact (Nat.mod_eq_of_lt hfits).symm
      refine ⟨start + v, addChecked_eq_some_iff.2 hnext, ih.2 ?_⟩
      omega

theorem sumChecked_eq_some_iff {values : List UInt64} {total : UInt64} :
    sumChecked values = some total ↔ exactTotal values = total.toNat := by
  unfold sumChecked
  rw [foldlM_addChecked_eq_some_iff, UInt64.toNat_zero, Nat.zero_add]

theorem toNat_foldl_addClamped (values : List UInt64) (start : UInt64) :
    (values.foldl addClamped start).toNat =
      min (start.toNat + exactTotal values) (UInt64.size - 1) := by
  induction values generalizing start with
  | nil =>
    have hsize := start.toNat_lt_size
    rw [List.foldl_nil, exactTotal_nil]
    omega
  | cons v r ih =>
    rw [List.foldl_cons, ih, toNat_addClamped, exactTotal_cons]
    omega

theorem toNat_sumClamped (values : List UInt64) :
    (sumClamped values).toNat = min (exactTotal values) (UInt64.size - 1) := by
  unfold sumClamped
  rw [toNat_foldl_addClamped, UInt64.toNat_zero, Nat.zero_add]

theorem totalOf_eq_ok_iff {values : List UInt64} {field : String} {total : UInt64} :
    totalOf values field = .ok total ↔ exactTotal values = total.toNat := by
  rw [← sumChecked_eq_some_iff]
  unfold totalOf
  split
  · next sum hsum => rw [hsum, Except.ok.injEq, Option.some.injEq]
  · next hsum => simp [hsum]

/-! ## The outputs of a path -/

theorem value_of_output {p : Payment} {o : TxOutput} (h : p.output = .ok o) :
    o.value = p.value := by
  obtain ⟨script, -, hscript⟩ := bind_eq_ok_iff.1 h
  rw [← pure_eq_ok_iff.1 hscript]

/-- The outputs of a path pay its entries and the payments, each its own value. -/
theorem perm_values_of_pathOutputs {label : String} {paths : List PathEntry}
    {payments : List Payment} {outs : List TxOutput}
    (h : pathOutputs label paths payments = .ok outs) :
    (outs.map (·.value)).Perm
      ((entriesOf label paths).map (·.value) ++ payments.map (·.value)) := by
  -- the outputs follow the sorted payments, and sorting only permutes the values
  have hvalues : outs.map (·.value) =
      (sortPayments (pathPayments label paths) ++ sortPayments payments).map (·.value) := by
    have hall := mapM_eq_ok_iff.1 h
    generalize sortPayments (pathPayments label paths) ++ sortPayments payments = ps at hall
    clear h
    induction hall with
    | nil => rfl
    | cons hhead _ ih => rw [List.map_cons, List.map_cons, value_of_output hhead, ih]
  have hentries : (pathPayments label paths).map (·.value) =
      (entriesOf label paths).map (·.value) := by
    unfold pathPayments
    rw [List.map_map]
    rfl
  rw [hvalues, List.map_append, ← hentries]
  exact ((List.mergeSort_perm _ _).map _).append ((List.mergeSort_perm _ _).map _)

theorem exactTotal_of_pathOutputs {label : String} {paths : List PathEntry}
    {payments : List Payment} {outs : List TxOutput}
    (h : pathOutputs label paths payments = .ok outs) :
    exactTotal (outs.map (·.value)) =
      exactTotal ((entriesOf label paths).map (·.value)) +
        exactTotal (payments.map (·.value)) := by
  rw [exactTotal_perm (perm_values_of_pathOutputs h), exactTotal_append]

/-! ## Valid proposals -/

/-- The check of the totals passes when every label, with the payments, adds up to the value. -/
theorem total_of_checkTotals {p : Proposal} (h : p.checkTotals = .ok ()) {label : String}
    (hlabel : label ∈ pathLabels p.paths) :
    exactTotal ((entriesOf label p.paths).map (·.value)) +
      exactTotal (p.payments.map (·.value)) = p.value.toNat := by
  obtain ⟨payments, hpayments, h⟩ := bind_eq_ok_iff.1 h
  obtain ⟨totals, htotals, h⟩ := bind_eq_ok_iff.1 h
  obtain ⟨⟨_, total⟩, hmem, hentry⟩ := exists_mem_of_mem_mapM htotals hlabel
  obtain ⟨_, hsum, hentry⟩ := bind_eq_ok_iff.1 hentry
  cases pure_eq_ok_iff.1 hentry
  have hchecked := forM_eq_ok_iff.1 h _ hmem
  rw [totalOf_eq_ok_iff.1 hsum, totalOf_eq_ok_iff.1 hpayments]
  cases hvalue : addChecked total payments with
  | none => simp [hvalue] at hchecked
  | some value =>
    simp only [hvalue, ensure_eq_ok_iff, decide_eq_true_eq] at hchecked
    rw [← hchecked]
    exact addChecked_eq_some_iff.1 hvalue

theorem checkTotals_of_validate {p : Proposal} (h : p.validate = .ok ()) :
    p.checkTotals = .ok () := by
  obtain ⟨-, -, -, -, -, -, htotals, -⟩ := Proposal.validate_eq_ok_iff.1 h
  exact htotals

end JointEscrow
