import JointEscrow.Contract.Publication
import JointEscrow.Proofs.Bytes.Hex
import JointEscrow.Proofs.Sorted

/-!
# The templates of a proposal

A proposal has one template for each of its labels, in label order. A template's digits stand for
the encoding of what its path pays, so its bytes are always read back (`bytes_of_spendTemplates`).
-/

namespace JointEscrow

variable {p : Proposal} {fees : List Payment} {outputs : List SpendTemplate} {t : SpendTemplate}

theorem nodup_pathLabels (paths : List PathEntry) : (pathLabels paths).Nodup :=
  SortedSet.nodup_elements _

theorem spendTemplate_eq_ok_iff {paths : List PathEntry} {payments : List Payment}
    {label : String} :
    spendTemplate paths payments label = .ok t ↔
      ∃ outs, pathOutputs label paths payments = .ok outs ∧
        t = ⟨label, Hex.encode (encodeTemplate outs)⟩ := by
  unfold spendTemplate
  simp only [bind_eq_ok_iff, pure_eq_ok_iff]
  constructor
  · rintro ⟨outs, houts, rfl⟩
    exact ⟨outs, houts, rfl⟩
  · rintro ⟨outs, houts, rfl⟩
    exact ⟨outs, houts, rfl⟩

theorem labels_of_spendTemplates (h : p.spendTemplates fees = .ok outputs) :
    outputs.map (·.label) = pathLabels p.paths := by
  have hall := mapM_eq_ok_iff.1 h
  clear h
  generalize pathLabels p.paths = labels at hall
  induction hall with
  | nil => rfl
  | cons hhead _ ih =>
    obtain ⟨outs, -, rfl⟩ := spendTemplate_eq_ok_iff.1 hhead
    rw [List.map_cons, ih]

/-- Each template holds what its label pays: the path's own entries, the payments and the fees. -/
theorem bytes_of_spendTemplates (h : p.spendTemplates fees = .ok outputs) (ht : t ∈ outputs) :
    ∃ outs, pathOutputs t.label p.paths (p.payments ++ fees) = .ok outs ∧
      t.bytes = .ok (encodeTemplate outs) := by
  obtain ⟨label, -, hlabel⟩ := exists_of_mem_mapM h ht
  obtain ⟨outs, houts, rfl⟩ := spendTemplate_eq_ok_iff.1 hlabel
  refine ⟨outs, houts, ?_⟩
  unfold SpendTemplate.bytes
  rw [mapError_eq_ok_iff, Hex.decode_encode]

end JointEscrow
