import JointEscrow.Proofs.Bytes.Order
import JointEscrow.Proofs.Contract.Publication
import JointEscrow.Proofs.Payout.Encoding

/-!
# Templates and the order of lists

What a path pays is sorted before any address is looked at. So neither the templates nor a refusal
depend on the order in which a proposal lists its entries and payments, or on which of the payments
are a server's fees (`Proposal.spendTemplates_congr`). A template pays each entry of its label and
each payment and fee once (`LaidOut`), and its digits say so: they write no other outputs.
-/

namespace JointEscrow

/-! ## The order of payments -/

namespace Payment

variable {a b c : Payment}

/-- By value, and of one value by the bytes of the address. -/
def Before (a b : Payment) : Prop :=
  a.value < b.value ∨ a.value = b.value ∧ utf8 a.address ≤ utf8 b.address

theorem le_iff : a.le b = true ↔ a.Before b := by
  rw [le, Bool.or_eq_true, Bool.and_eq_true, Bool.not_eq_true', decide_eq_true_eq,
    decide_eq_true_eq, decide_eq_false_iff_not, ← utf8_lt_iff]
  exact Iff.rfl

theorem Before.trans (hab : a.Before b) (hbc : b.Before c) : a.Before c := by
  rcases hab with hab | ⟨hab, haddress⟩
  · rcases hbc with hbc | ⟨hbc, -⟩
    · exact .inl (UInt64.lt_trans hab hbc)
    · exact .inl (hbc ▸ hab)
  · rcases hbc with hbc | ⟨hbc, haddress'⟩
    · exact .inl (hab ▸ hbc)
    · exact .inr ⟨hab.trans hbc, List.le_trans (α := UInt8) haddress haddress'⟩

theorem before_total (a b : Payment) : a.Before b ∨ b.Before a := by
  rcases Nat.lt_trichotomy a.value.toNat b.value.toNat with hlt | heq | hgt
  · exact .inl (.inl hlt)
  · have hvalue : a.value = b.value := UInt64.toNat_inj.1 heq
    rcases List.le_total (α := UInt8) (utf8 a.address) (utf8 b.address) with ha | hb
    · exact .inl (.inr ⟨hvalue, ha⟩)
    · exact .inr (.inr ⟨hvalue.symm, hb⟩)
  · exact .inr (.inl hgt)

theorem Before.antisymm (hab : a.Before b) (hba : b.Before a) : a = b := by
  rcases hab with hlt | ⟨hvalue, hab⟩
  · rcases hba with hgt | ⟨heq, -⟩
    · exact absurd (UInt64.lt_trans hlt hgt) (UInt64.lt_irrefl _)
    · exact absurd (heq ▸ hlt) (UInt64.lt_irrefl _)
  · rcases hba with hgt | ⟨-, hba⟩
    · exact absurd (hvalue ▸ hgt) (UInt64.lt_irrefl _)
    · have haddress : a.address = b.address :=
        utf8_injective (List.le_antisymm (α := UInt8) hab hba)
      cases a
      cases b
      cases hvalue
      cases haddress
      rfl

theorem decides_before : DecidesOrder le Before :=
  ⟨fun _ _ => le_iff, fun _ _ _ => Before.trans, before_total, fun _ _ => Before.antisymm⟩

end Payment

theorem perm_sortPayments (l : List Payment) : (sortPayments l).Perm l :=
  List.mergeSort_perm l Payment.le

theorem pairwise_sortPayments (l : List Payment) : (sortPayments l).Pairwise Payment.Before :=
  Payment.decides_before.pairwise l

theorem sortPayments_of_perm {l r : List Payment} (h : l.Perm r) :
    sortPayments l = sortPayments r := Payment.decides_before.mergeSort_eq_iff.2 h

/-! ## Lists in another order -/

section Orders

variable {paths paths' : List PathEntry} {charges charges' : List Payment}

theorem pathLabels_of_perm (h : paths.Perm paths') : pathLabels paths' = pathLabels paths :=
  congrArg SortedSet.elements (SortedSet.foldl_insert_perm (h.map _).symm .empty)

theorem pathOutputs_of_perm (hpaths : paths.Perm paths') (hcharges : charges.Perm charges')
    (label : String) : pathOutputs label paths' charges' = pathOutputs label paths charges := by
  have hown : (pathPayments label paths).Perm (pathPayments label paths') :=
    (hpaths.filter _).map _
  rw [pathOutputs, pathOutputs, sortPayments_of_perm hown, sortPayments_of_perm hcharges]

theorem Proposal.spendTemplates_congr {p q : Proposal} {fees others : List Payment}
    (hpaths : p.paths.Perm q.paths) (hcharges : (p.payments ++ fees).Perm (q.payments ++ others)) :
    q.spendTemplates others = p.spendTemplates fees := by
  have hsame : spendTemplate q.paths (q.payments ++ others) =
      spendTemplate p.paths (p.payments ++ fees) := by
    funext label
    rw [spendTemplate, spendTemplate, pathOutputs_of_perm hpaths hcharges label]
  rw [spendTemplates, spendTemplates, pathLabels_of_perm hpaths, hsame]

end Orders

/-! ## What a template pays -/

/-- The output pays the value to the address. -/
structure Payment.PaidBy (q : Payment) (o : TxOutput) : Prop where
  value : o.value = q.value
  script : addressScript q.address = .ok o.script

/-- The outputs pay a path's own entries and then what every path is charged, each once and both in
order. -/
structure LaidOut (label : String) (paths : List PathEntry) (charges own shared : List Payment)
    (outs : List TxOutput) : Prop where
  entries : own.Perm ((paths.filter fun e => e.path = label).map fun e => ⟨e.value, e.address⟩)
  charged : shared.Perm charges
  ownInOrder : own.Pairwise Payment.Before
  sharedInOrder : shared.Pairwise Payment.Before
  paid : List.Forall₂ Payment.PaidBy (own ++ shared) outs

/-- The template says what its label pays. Its digits write these outputs and no others that can be
counted in a template. -/
def SpendTemplate.Pays (t : SpendTemplate) (paths : List PathEntry) (charges : List Payment) :
    Prop :=
  ∃ own shared outs, LaidOut t.label paths charges own shared outs ∧
    t.txhex = Hex.encode (encodeTemplate outs) ∧
    (outs.length < 2 ^ 32 → ∀ rest, Writable rest →
      t.txhex = Hex.encode (encodeTemplate rest) → rest = outs)

variable {q : Payment} {o : TxOutput} {label : String} {paths : List PathEntry}
  {charges : List Payment} {outs : List TxOutput} {t : SpendTemplate}

theorem paidBy_iff : q.output = .ok o ↔ q.PaidBy o := by
  unfold Payment.output
  simp only [bind_eq_ok_iff, pure_eq_ok_iff]
  constructor
  · rintro ⟨script, hscript, rfl⟩
    exact ⟨rfl, hscript⟩
  · rintro ⟨hvalue, hscript⟩
    refine ⟨o.script, hscript, ?_⟩
    rw [← hvalue]

theorem laidOut_of_pathOutputs (h : pathOutputs label paths charges = .ok outs) :
    LaidOut label paths charges (sortPayments (pathPayments label paths)) (sortPayments charges)
      outs := by
  constructor
  · exact perm_sortPayments _
  · exact perm_sortPayments _
  · exact pairwise_sortPayments _
  · exact pairwise_sortPayments _
  · apply (mapM_eq_ok_iff.1 h).imp
    intro q o ho
    exact paidBy_iff.1 ho

theorem pays_of_spendTemplate (h : spendTemplate paths charges label = .ok t) :
    t.Pays paths charges := by
  obtain ⟨outs, houts, rfl⟩ := spendTemplate_eq_ok_iff.1 h
  refine ⟨_, _, outs, laidOut_of_pathOutputs houts, rfl, ?_⟩
  intro hcount rest hrest hsame
  -- digits tell their bytes, and the bytes of a template tell its outputs
  have hbytes : encodeTemplate rest = encodeTemplate outs := by
    have hdecoded := congrArg Hex.decode hsame
    rw [Hex.decode_encode, Hex.decode_encode] at hdecoded
    exact (Except.ok.inj hdecoded).symm
  exact encodeTemplate_injective hrest (writable_of_pathOutputs houts hcount) hbytes

theorem exists_templates_iff {p : Proposal} {fees : List Payment} :
    (∃ outputs, p.spendTemplates fees = .ok outputs) ↔
      p.paths = [] ∨ (∀ e ∈ p.paths, PlainAddress e.address) ∧
        ∀ q ∈ p.payments ++ fees, PlainAddress q.address := by
  by_cases hpaths : p.paths = []
  · refine iff_of_true ⟨[], ?_⟩ (.inl hpaths)
    rw [Proposal.spendTemplates, hpaths]
    rfl
  · rw [exists_spendTemplates_iff hpaths, or_iff_right hpaths]

/-- The order of a proposal's lists and the line between payments and fees make no difference to its
templates. There is one for each label, in the order of the labels' bytes, and it pays what its path
pays. -/
theorem Proposal.templates_of_listing (p : Proposal) (fees : List Payment) :
    (∀ (q : Proposal) (others : List Payment), p.paths.Perm q.paths →
      (p.payments ++ fees).Perm (q.payments ++ others) →
        q.spendTemplates others = p.spendTemplates fees) ∧
    ((∃ outputs, p.spendTemplates fees = .ok outputs) ↔
      p.paths = [] ∨ (∀ e ∈ p.paths, PlainAddress e.address) ∧
        ∀ q ∈ p.payments ++ fees, PlainAddress q.address) ∧
    ∀ outputs, p.spendTemplates fees = .ok outputs →
      (outputs.map (·.label)).Pairwise (fun a b => utf8 a < utf8 b) ∧
      (∀ label, label ∈ outputs.map (·.label) ↔ ∃ e ∈ p.paths, e.path = label) ∧
      ∀ t ∈ outputs, t.Pays p.paths (p.payments ++ fees) := by
  refine ⟨fun q others => spendTemplates_congr, exists_templates_iff, fun outputs houtputs => ?_⟩
  rw [labels_of_spendTemplates houtputs]
  refine ⟨?_, fun label => mem_pathLabels_iff, fun t ht => ?_⟩
  · apply (SortedSet.ofList (p.paths.map (·.path))).sorted.imp
    intro a b hab
    exact utf8_lt_iff.2 hab
  · obtain ⟨label, -, hlabel⟩ := exists_of_mem_mapM houtputs ht
    exact pays_of_spendTemplate hlabel

/-- The stake with its entries in reverse and a clerk among those paid in place of the judge. -/
def restatedStake : Proposal :=
  { sharedStake with
    paths := sharedStake.paths.reverse
    payments := [⟨60, "clerk"⟩, ⟨40, "host"⟩] }

/-- The judge's pay as a fee and the clerk's as a payment, or the other way round: the templates are
the same. A fee to no address is refused. -/
theorem restatedStake_templates :
    restatedStake.spendTemplates [⟨60, "judge"⟩] = sharedStake.spendTemplates [⟨60, "clerk"⟩] ∧
    (∃ outputs, sharedStake.spendTemplates [⟨60, "clerk"⟩] = .ok outputs ∧
      "draw" ∈ outputs.map (·.label) ∧ "lose" ∉ outputs.map (·.label) ∧
      ∀ t ∈ outputs, t.Pays sharedStake.paths (sharedStake.payments ++ [⟨60, "clerk"⟩])) ∧
    ¬ ∃ outputs, sharedStake.spendTemplates [⟨1, "no one"⟩] = .ok outputs := by
  obtain ⟨horder, hsucceeds, hpays⟩ := sharedStake.templates_of_listing [⟨60, "clerk"⟩]
  have hsame := horder restatedStake [⟨60, "judge"⟩] (by decide) (by decide)
  have haddresses : (∀ e ∈ sharedStake.paths, PlainAddress e.address) ∧
      ∀ q ∈ sharedStake.payments ++ [⟨60, "clerk"⟩], PlainAddress q.address := by
    simp only [← isAddress_iff]
    decide
  obtain ⟨outputs, houtputs⟩ := hsucceeds.2 (.inr haddresses)
  obtain ⟨-, hlabels, htemplates⟩ := hpays outputs houtputs
  refine ⟨hsame, ⟨outputs, houtputs, ?_, ?_, htemplates⟩, ?_⟩
  · rw [hlabels]
    decide
  · rw [hlabels]
    decide
  · rw [(sharedStake.templates_of_listing [⟨1, "no one"⟩]).2.1]
    simp only [← isAddress_iff]
    decide

end JointEscrow
