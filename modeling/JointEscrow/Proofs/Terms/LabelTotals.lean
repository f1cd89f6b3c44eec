import JointEscrow.Proofs.Bytes.Order
import JointEscrow.Proofs.Terms.WellFormed

/-!
# Totals by label

Every label gets the exact total of its entries, in the order of the labels' bytes, or the first
label in that order whose total does not fit is refused by its name. Sums are taken from left to
right and label by label, but which of the two happens, and what is listed or named, is told by the
exact totals alone (`pathTotals_eq_ok_iff`, `pathTotals_eq_error_iff`), so the order of the entries
makes no difference. As every entry has one label, the totals add up to what all entries do.
-/

namespace JointEscrow

variable {paths paths' : List PathEntry} {totals : List (String × UInt64)} {label : String}
  {e : TermsError}

/-- What the entries of a label add up to. -/
def labelTotal (label : String) (paths : List PathEntry) : Nat :=
  exactTotal ((paths.filter fun e => e.path = label).map (·.value))

theorem labelTotal_of_perm (h : paths.Perm paths') (label : String) :
    labelTotal label paths = labelTotal label paths' :=
  exactTotal_perm ((h.filter _).map _)

/-- A label with a total is the label of some entry. -/
theorem exists_of_labelTotal_pos (h : 0 < labelTotal label paths) : ∃ e ∈ paths, e.path = label := by
  by_contra hnone
  push Not at hnone
  have hempty : (paths.filter fun e => e.path = label) = [] := by
    simpa using hnone
  rw [labelTotal, hempty] at h
  exact Nat.lt_irrefl _ h

/-! ## One label -/

theorem totalOf_eq_error_iff {values : List UInt64} {field : String} :
    totalOf values field = .error e ↔ e = .amountOverflow field ∧ 2 ^ 64 ≤ exactTotal values := by
  have hfits := exists_totalOf_iff values field
  have hcause : ∀ e, totalOf values field = .error e → e = .amountOverflow field := by
    intro e he
    unfold totalOf at he
    split at he <;> cases he
    rfl
  cases htotal : totalOf values field with
  | ok total =>
    have hlt : exactTotal values < 2 ^ 64 := hfits.1 ⟨total, htotal⟩
    simp only [reduceCtorEq, false_iff, not_and]
    intro _
    omega
  | error e' =>
    have hle : 2 ^ 64 ≤ exactTotal values := by
      apply Nat.le_of_not_lt
      intro hlt
      obtain ⟨total, hok⟩ := hfits.2 hlt
      cases htotal.symm.trans hok
    obtain rfl := hcause e' htotal
    rw [Except.error.injEq, and_iff_left hle, eq_comm]

/-- The total of one label, as it is listed. -/
def labelEntry (paths : List PathEntry) (label : String) :
    Except TermsError (String × UInt64) := do
  return (label, ← totalOf ((entriesOf label paths).map (·.value)) label)

theorem pathTotals_eq (paths : List PathEntry) :
    pathTotals paths = (pathLabels paths).mapM (labelEntry paths) := rfl

theorem labelEntry_eq_ok_iff {x : String × UInt64} :
    labelEntry paths label = .ok x ↔ label = x.1 ∧ x.2.toNat = labelTotal label paths := by
  unfold labelEntry
  simp only [bind_eq_ok_iff, pure_eq_ok_iff, totalOf_eq_ok_iff]
  constructor
  · rintro ⟨total, htotal, rfl⟩
    exact ⟨rfl, htotal.symm⟩
  · rintro ⟨rfl, htotal⟩
    exact ⟨x.2, htotal.symm, rfl⟩

theorem labelEntry_eq_error_iff :
    labelEntry paths label = .error e ↔
      e = .amountOverflow label ∧ 2 ^ 64 ≤ labelTotal label paths := by
  unfold labelEntry
  rw [bind_eq_error_iff]
  simp only [pure, Except.pure, reduceCtorEq, and_false, exists_false, or_false]
  exact totalOf_eq_error_iff

theorem exists_labelEntry_iff :
    (∃ x, labelEntry paths label = .ok x) ↔ labelTotal label paths < 2 ^ 64 := by
  cases hentry : labelEntry paths label with
  | ok x =>
    refine iff_of_true ⟨x, rfl⟩ ?_
    rw [← (labelEntry_eq_ok_iff.1 hentry).2]
    exact x.2.toNat_lt
  | error e =>
    refine iff_of_false (by simp) ?_
    exact Nat.not_lt.2 (labelEntry_eq_error_iff.1 hentry).2

/-! ## All labels -/

/-- Each label is listed once with the exact total of its entries, in the order of the labels' bytes.
-/
structure ListsTotals (paths : List PathEntry) (totals : List (String × UInt64)) : Prop where
  ascending : (totals.map Prod.fst).Pairwise fun a b => utf8 a < utf8 b
  labels : ∀ label, label ∈ totals.map Prod.fst ↔ ∃ e ∈ paths, e.path = label
  exact : ∀ x ∈ totals, x.2.toNat = labelTotal x.1 paths

/-- The first label, in the order of the bytes, whose entries add up to more than an amount holds. -/
structure FirstOverflow (paths : List PathEntry) (label : String) : Prop where
  exceeds : 2 ^ 64 ≤ labelTotal label paths
  first : ∀ other, 2 ^ 64 ≤ labelTotal other paths → utf8 label ≤ utf8 other

theorem ListsTotals.perm (h : ListsTotals paths totals) (hperm : paths.Perm paths') :
    ListsTotals paths' totals := by
  refine ⟨h.ascending, fun label => ?_, fun x hx => ?_⟩
  · simp only [h.labels, hperm.mem_iff]
  · rw [h.exact x hx, labelTotal_of_perm hperm]

theorem FirstOverflow.perm (h : FirstOverflow paths label) (hperm : paths.Perm paths') :
    FirstOverflow paths' label := by
  constructor
  · rw [← labelTotal_of_perm hperm]
    exact h.exceeds
  · intro other hother
    rw [← labelTotal_of_perm hperm] at hother
    exact h.first other hother

theorem pathLabels_sorted (paths : List PathEntry) :
    (pathLabels paths).Pairwise fun a b => utf8 a < utf8 b := by
  apply (SortedSet.ofList (paths.map (·.path))).sorted.imp
  intro a b hab
  exact utf8_lt_iff.2 hab

theorem nodup_of_ascending {labels : List String}
    (h : labels.Pairwise fun a b => utf8 a < utf8 b) : labels.Nodup := by
  apply h.imp
  rintro a b hlt rfl
  exact List.lt_irrefl (α := UInt8) _ hlt

/-- The labels are the only list of them in ascending order. -/
theorem eq_pathLabels {labels : List String}
    (hascending : labels.Pairwise fun a b => utf8 a < utf8 b)
    (hmem : ∀ label, label ∈ labels ↔ ∃ e ∈ paths, e.path = label) : labels = pathLabels paths := by
  have hperm : labels.Perm (pathLabels paths) := by
    rw [List.perm_ext_iff_of_nodup (nodup_of_ascending hascending)
      (nodup_of_ascending (pathLabels_sorted paths))]
    intro label
    rw [hmem, mem_pathLabels_iff]
  apply hperm.eq_of_pairwise _ hascending (pathLabels_sorted paths)
  intro a b _ _ hab hba
  exact absurd hba (List.lt_asymm (α := UInt8) hab)

/-- The totals are listed exactly when they are those of all labels. -/
theorem pathTotals_eq_ok_iff : pathTotals paths = .ok totals ↔ ListsTotals paths totals := by
  rw [pathTotals_eq, mapM_eq_ok_iff]
  simp only [labelEntry_eq_ok_iff]
  constructor
  · intro h
    have hlabels : pathLabels paths = totals.map Prod.fst := by
      rw [← List.forall₂_eq_eq_eq, List.forall₂_map_right_iff]
      exact h.imp fun _ _ => And.left
    refine ⟨?_, fun label => ?_, fun x hx => ?_⟩
    · rw [← hlabels]
      exact pathLabels_sorted paths
    · rw [← hlabels, mem_pathLabels_iff]
    · obtain ⟨_, -, rfl, htotal⟩ := exists_left_of_forall₂ h hx
      exact htotal
  · intro h
    have hlabels : totals.map Prod.fst = pathLabels paths :=
      eq_pathLabels h.ascending h.labels
    rw [← hlabels, List.forall₂_map_left_iff]
    exact List.forall₂_same.2 fun x hx => ⟨rfl, h.exact x hx⟩

/-- A total is refused exactly when one does not fit, and then under the name of the first of these.
-/
theorem pathTotals_eq_error_iff :
    pathTotals paths = .error e ↔ ∃ label, e = .amountOverflow label ∧ FirstOverflow paths label := by
  rw [pathTotals_eq, mapM_eq_error_iff]
  simp only [exists_labelEntry_iff, labelEntry_eq_error_iff]
  have hlisted : ∀ other, 2 ^ 64 ≤ labelTotal other paths → other ∈ pathLabels paths := by
    intro other hother
    exact mem_pathLabels_iff.2 (exists_of_labelTotal_pos (by omega))
  have hsorted := pathLabels_sorted paths
  constructor
  · rintro ⟨front, label, rest, hsplit, hfront, rfl, hexceeds⟩
    refine ⟨label, rfl, hexceeds, fun other hother => ?_⟩
    have hmem := hlisted other hother
    rw [hsplit] at hmem hsorted
    obtain ⟨-, hrest, -⟩ := List.pairwise_append.1 hsorted
    -- the labels in front fit, and those behind are greater
    rcases List.mem_append.1 hmem with hother' | hother'
    · exact absurd (hfront other hother') (Nat.not_lt.2 hother)
    · rcases List.mem_cons.1 hother' with rfl | hbehind
      · exact List.le_refl (α := UInt8) _
      · exact List.le_of_lt (α := UInt8) ((List.pairwise_cons.1 hrest).1 other hbehind)
  · rintro ⟨label, rfl, h⟩
    obtain ⟨front, rest, hsplit⟩ := List.append_of_mem (hlisted label h.exceeds)
    refine ⟨front, label, rest, hsplit, fun other hother => ?_, rfl, h.exceeds⟩
    rw [hsplit] at hsorted
    obtain ⟨-, -, hbefore⟩ := List.pairwise_append.1 hsorted
    by_contra hexceeds
    exact h.first other (Nat.le_of_not_lt hexceeds)
      (hbefore other hother label List.mem_cons_self)

/-! ## All entries -/

/-- Entries grouped by label add up to what they do together. -/
theorem exactTotal_eq_sum_labelTotal {labels : List String} (hdistinct : labels.Nodup)
    (hcover : ∀ e ∈ paths, e.path ∈ labels) :
    exactTotal (paths.map (·.value)) = (labels.map fun label => labelTotal label paths).sum := by
  induction labels generalizing paths with
  | nil =>
    have hnone : paths = [] := List.eq_nil_iff_forall_not_mem.2 fun e he => by simpa using hcover e he
    rw [hnone]
    rfl
  | cons label labels ih =>
    obtain ⟨hnew, hdistinct⟩ := List.nodup_cons.1 hdistinct
    -- what is left when the entries of the first label are taken out
    have hrest : ∀ e ∈ paths.filter fun e => !decide (e.path = label), e.path ∈ labels := by
      intro e he
      obtain ⟨he, hother⟩ := List.mem_filter.1 he
      have hother : e.path ≠ label := by simpa using hother
      exact (List.mem_cons.1 (hcover e he)).resolve_left hother
    have hsame : ∀ other ∈ labels, labelTotal other (paths.filter fun e => !decide (e.path = label))
        = labelTotal other paths := by
      intro other hother
      have hne : other ≠ label := fun h => hnew (h ▸ hother)
      unfold labelTotal
      rw [List.filter_filter]
      congr 2
      apply List.filter_congr
      intro e _
      by_cases he : e.path = other <;> simp [he, hne]
    have hsplit := exactTotal_perm
      ((List.filter_append_perm (fun e => decide (e.path = label)) paths).map (·.value))
    rw [List.map_append, exactTotal_append, ih hdistinct hrest, List.map_congr_left hsame] at hsplit
    rw [← hsplit, List.map_cons, List.sum_cons]
    rfl

theorem exactTotal_eq_sum (values : List UInt64) :
    exactTotal values = (values.map UInt64.toNat).sum := by
  induction values with
  | nil => rfl
  | cons v r ih => rw [exactTotal_cons, ih, List.map_cons, List.sum_cons]

theorem ListsTotals.exactTotal_eq (h : ListsTotals paths totals) :
    exactTotal (totals.map Prod.snd) = exactTotal (paths.map (·.value)) := by
  rw [exactTotal_eq_sum_labelTotal (nodup_of_ascending h.ascending)
    fun e he => (h.labels e.path).2 ⟨e, he, rfl⟩, exactTotal_eq_sum, List.map_map, List.map_map]
  congr 1
  apply List.map_congr_left
  intro x hx
  exact h.exact x hx

/-- Totals are listed for every label if all of them fit, and otherwise the first that does not is
named; either way the order of the entries makes no difference. -/
theorem totals_partition_entries (paths : List PathEntry) :
    ((∃ totals, pathTotals paths = .ok totals) ↔ ∀ label, labelTotal label paths < 2 ^ 64) ∧
    (∀ totals, pathTotals paths = .ok totals ↔ ListsTotals paths totals) ∧
    (∀ totals, pathTotals paths = .ok totals →
      exactTotal (totals.map Prod.snd) = exactTotal (paths.map (·.value))) ∧
    (∀ e, pathTotals paths = .error e ↔
      ∃ label, e = .amountOverflow label ∧ FirstOverflow paths label) ∧
    ∀ paths', paths.Perm paths' → pathTotals paths' = pathTotals paths := by
  refine ⟨?_, fun _ => pathTotals_eq_ok_iff, ?_, fun _ => pathTotals_eq_error_iff, ?_⟩
  · rw [pathTotals_eq, exists_mapM_iff]
    simp only [exists_labelEntry_iff]
    refine ⟨fun h label => ?_, fun h label _ => h label⟩
    by_contra hexceeds
    have hlabel := exists_of_labelTotal_pos (Nat.lt_of_lt_of_le (by decide) (Nat.le_of_not_lt hexceeds))
    exact hexceeds (h label (mem_pathLabels_iff.2 hlabel))
  · intro totals htotals
    exact (pathTotals_eq_ok_iff.1 htotals).exactTotal_eq
  · intro paths' hperm
    cases htotals : pathTotals paths with
    | ok totals => exact pathTotals_eq_ok_iff.2 ((pathTotals_eq_ok_iff.1 htotals).perm hperm)
    | error e =>
      obtain ⟨label, he, hfirst⟩ := pathTotals_eq_error_iff.1 htotals
      exact pathTotals_eq_error_iff.2 ⟨label, he, hfirst.perm hperm⟩

/-- Stakes that are too high for two labels. -/
def highStakes : List PathEntry :=
  [⟨"win", 18446744073709551615, "alice"⟩, ⟨"draw", 1, "bob"⟩, ⟨"win", 1, "bob"⟩,
    ⟨"draw", 18446744073709551615, "alice"⟩]

/-- A draw is named although the other label is listed first, in whatever order the entries come. The
first two stakes alone are listed, and together they are more than an amount holds. -/
theorem highStakes_partition :
    (∃ label, TermsError.amountOverflow "draw" = .amountOverflow label ∧
      FirstOverflow highStakes label) ∧
    pathTotals highStakes.reverse = .error (.amountOverflow "draw") ∧
    ListsTotals (highStakes.take 2) [("draw", 1), ("win", 18446744073709551615)] ∧
    exactTotal ((highStakes.take 2).map (·.value)) = 2 ^ 64 := by
  have hrefused : pathTotals highStakes = .error (.amountOverflow "draw") := by decide +kernel
  have hlisted : pathTotals (highStakes.take 2) =
      .ok [("draw", 1), ("win", 18446744073709551615)] := by decide +kernel
  obtain ⟨-, -, -, hcause, horder⟩ := totals_partition_entries highStakes
  obtain ⟨-, htotals, hsum, -⟩ := totals_partition_entries (highStakes.take 2)
  refine ⟨(hcause _).1 hrefused, ?_, (htotals _).1 hlisted, ?_⟩
  · rw [horder _ (List.reverse_perm _).symm, hrefused]
  · rw [← hsum _ hlisted]
    decide

end JointEscrow
