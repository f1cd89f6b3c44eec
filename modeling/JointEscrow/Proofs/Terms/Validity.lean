import JointEscrow.Proofs.Checks

/-!
# Valid proposals

The checks of a proposal as the conjunction of their conditions (`Proposal.validate_eq_ok_iff`), and
what its labels are.
-/

namespace JointEscrow

theorem mem_pathLabels_iff {paths : List PathEntry} {label : String} :
    label ∈ pathLabels paths ↔ ∃ e ∈ paths, e.path = label := by
  unfold pathLabels
  rw [SortedSet.mem_elements, SortedSet.mem_ofList, List.mem_map]

theorem PathEntry.validate_eq_ok_iff {e : PathEntry} :
    e.validate = .ok () ↔ e.path.isEmpty = false ∧ e.value ≠ 0 := by
  unfold validate
  rw [check_bind_eq_ok_iff, ensure_eq_ok_iff, ensure_eq_ok_iff, Bool.not_eq_true',
    decide_eq_true_eq]

theorem Proposal.validate_eq_ok_iff {p : Proposal} :
    p.validate = .ok () ↔
      Text.allBlank p.title = false ∧ p.value ≠ 0 ∧ p.duration ≠ 0 ∧ p.paths ≠ [] ∧
        (∀ e ∈ p.paths, e.validate = .ok ()) ∧ (∀ q ∈ p.payments, q.validate = .ok ()) ∧
          p.checkTotals = .ok () ∧
            (∀ q ∈ p.programs, q.validate (pathLabels p.paths) = .ok ()) ∧
              ∀ e ∈ p.schedule, e.validate (pathLabels p.paths) p.duration = .ok () := by
  unfold validate
  simp only [check_bind_eq_ok_iff, ensure_eq_ok_iff, forM_eq_ok_iff, Bool.not_eq_true',
    decide_eq_true_eq, List.isEmpty_eq_false_iff]

end JointEscrow
