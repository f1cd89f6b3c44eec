import JointEscrow.Proofs.Machine.Acceptance
import Mathlib.Data.List.Dedup

/-!
# Endorsing in turn

Keys endorse a witness one after the other, some of them more than once. What they sign stays the
same, since no endorsement is part of it, and in the end each key has one endorsement: the keys that
did not endorse anew keep their order, and the others follow in the order in which each endorsed
last (`signers_endorsed`). So of signed endorsements by distinct keys come signed endorsements by
distinct keys, and a witness like this is valid as soon as it has a path and an endorsement
(`validly_endorsed`).
-/

namespace JointEscrow

namespace Witness

variable {v w : Witness} {keys : List KeyPair} {e : Endorsement}

/-! ## One endorsement -/

theorem id_eq_of_request (h : v.request = w.request) : v.id = w.id :=
  congrArg Digest.ofValue h

theorem request_endorse (w : Witness) (key : KeyPair) : (w.endorse key).request = w.request := rfl

theorem signers_endorse (w : Witness) (key : KeyPair) :
    (w.endorse key).signers =
      (w.signers.filter fun k => k ≠ key.publicKey) ++ [key.publicKey] := by
  unfold signers endorse
  rw [List.map_append, List.map_singleton, List.filter_map]
  rfl

theorem mem_endorse_iff {key : KeyPair} :
    e ∈ (w.endorse key).endorsements ↔
      e ∈ w.endorsements ∧ e.pubkey ≠ key.publicKey ∨ e = .create key w.id := by
  unfold endorse
  rw [List.mem_append, List.mem_filter, List.mem_singleton, decide_eq_true_eq]
  rfl

/-! ## One after the other -/

/-- One more item at the end is there instead of the earlier ones like it. -/
theorem dedup_concat {α : Type} [DecidableEq α] (l : List α) (a : α) :
    (l ++ [a]).dedup = (l.dedup.filter fun b => b ≠ a) ++ [a] := by
  induction l with
  | nil => simp
  | cons b l ih =>
    rw [List.cons_append]
    by_cases hba : b = a
    · have hmem : b ∈ l ++ [a] := by simp [hba]
      rw [List.dedup_cons_of_mem hmem, ih]
      by_cases hb : b ∈ l
      · rw [List.dedup_cons_of_mem hb]
      · rw [List.dedup_cons_of_notMem hb, List.filter_cons_of_neg (by simp [hba])]
    · by_cases hb : b ∈ l
      · rw [List.dedup_cons_of_mem (List.mem_append_left _ hb), List.dedup_cons_of_mem hb, ih]
      · have hnotMem : b ∉ l ++ [a] := by simp [hb, hba]
        rw [List.dedup_cons_of_notMem hnotMem, List.dedup_cons_of_notMem hb,
          List.filter_cons_of_pos (by simpa using hba), ih, List.cons_append]

theorem endorsed_concat (w : Witness) (keys : List KeyPair) (key : KeyPair) :
    (keys ++ [key]).foldl endorse w = (keys.foldl endorse w).endorse key := by
  rw [List.foldl_append, List.foldl_cons, List.foldl_nil]

theorem request_endorsed (w : Witness) (keys : List KeyPair) :
    (keys.foldl endorse w).request = w.request := by
  induction keys using List.reverseRecOn with
  | nil => rfl
  | append_singleton keys key ih => rw [endorsed_concat, request_endorse, ih]

/-- Who has endorsed a witness, and in which order. -/
theorem signers_endorsed (w : Witness) (keys : List KeyPair) :
    (keys.foldl endorse w).signers =
      (w.signers.filter fun k => k ∉ keys.map KeyPair.publicKey) ++
        (keys.map KeyPair.publicKey).dedup := by
  induction keys using List.reverseRecOn with
  | nil => simp
  | append_singleton keys key ih =>
    rw [endorsed_concat, signers_endorse, ih, List.filter_append, List.filter_filter,
      List.append_assoc, List.map_append, List.map_singleton, dedup_concat]
    congr 1
    apply List.filter_congr
    intro k _
    simp [and_comm]

/-- Where an endorsement comes from: it was there before, or one of the keys has given it. -/
theorem origin_of_endorsed (h : e ∈ (keys.foldl endorse w).endorsements) :
    e ∈ w.endorsements ∧ e.pubkey ∉ keys.map KeyPair.publicKey ∨
      ∃ key ∈ keys, e = .create key w.id := by
  induction keys using List.reverseRecOn with
  | nil => exact .inl ⟨h, List.not_mem_nil⟩
  | append_singleton keys key ih =>
    rw [endorsed_concat, mem_endorse_iff, id_eq_of_request (request_endorsed w keys)] at h
    rcases h with ⟨h, hother⟩ | rfl
    · rcases ih h with ⟨hbefore, hnone⟩ | ⟨k, hk, rfl⟩
      · left
        refine ⟨hbefore, ?_⟩
        rw [List.map_append, List.mem_append, not_or]
        exact ⟨hnone, by simpa using hother⟩
      · exact .inr ⟨k, List.mem_append_left _ hk, rfl⟩
    · exact .inr ⟨key, by simp, rfl⟩

/-- A witness after some keys have endorsed it, each perhaps several times. -/
structure ValidlyEndorsed (w : Witness) (keys : List KeyPair) (v : Witness) : Prop where
  request : v.request = w.request
  id : v.id = w.id
  order : v.signers = (w.signers.filter fun k => k ∉ keys.map KeyPair.publicKey) ++
    (keys.map KeyPair.publicKey).dedup
  distinct : v.signers.Nodup
  origin : ∀ e ∈ v.endorsements, e ∈ w.endorsements ∧ e.pubkey ∉ keys.map KeyPair.publicKey ∨
    ∃ key ∈ keys, e = .create key w.id
  signed : ∀ e ∈ v.endorsements, e.verifies w.id = true
  valid : v.validate = .ok () ↔ v.path ≠ "" ∧ v.endorsements ≠ []

/-- Endorsing in turn makes a witness with distinct signers and good signatures of one like that.
All that is asked of the keys is that their own signatures verify. -/
theorem validly_endorsed (hdistinct : w.signers.Nodup)
    (hsigned : ∀ e ∈ w.endorsements, e.verifies w.id = true)
    (hkeys : ∀ key ∈ keys, key.publicKey.verifies w.id (key.sign w.id) = true) :
    ValidlyEndorsed w keys (keys.foldl endorse w) := by
  have hnodup : (keys.foldl endorse w).signers.Nodup := by
    rw [signers_endorsed]
    refine (hdistinct.filter _).append (List.nodup_dedup _) ?_
    intro k hold hnew
    exact of_decide_eq_true (List.mem_filter.1 hold).2 (List.mem_dedup.1 hnew)
  constructor
  case request => exact request_endorsed w keys
  case id => exact id_eq_of_request (request_endorsed w keys)
  case order => exact signers_endorsed w keys
  case distinct => exact hnodup
  case origin => exact fun e => origin_of_endorsed
  case signed =>
    intro e he
    rcases origin_of_endorsed he with ⟨hbefore, -⟩ | ⟨key, hkey, rfl⟩
    · exact hsigned e hbefore
    · exact hkeys key hkey
  case valid =>
    rw [Machine.validate_eq_ok_iff]
    exact ⟨fun ⟨hpath, hsome, _⟩ => ⟨hpath, hsome⟩, fun ⟨hpath, hsome⟩ => ⟨hpath, hsome, hnodup⟩⟩

/-- The key pairs of the seller and of an agent who is asked to confirm. -/
def sellerPair : KeyPair := ⟨Vector.replicate 32 2⟩

def agentPair : KeyPair := ⟨Vector.replicate 32 3⟩

/-- On top of the buyer's word the seller gives theirs, waits for the agent, and gives it again. -/
theorem buyerWitness_validly_endorsed :
    ∃ v, v = [sellerPair, agentPair, sellerPair].foldl endorse Machine.buyerWitness ∧
      ValidlyEndorsed Machine.buyerWitness [sellerPair, agentPair, sellerPair] v ∧
      v.signers = [Machine.buyerKey, agentPair.publicKey, sellerPair.publicKey] ∧
      v.validate = .ok () := by
  have hkeys : ∀ key ∈ [sellerPair, agentPair],
      key.publicKey.verifies Machine.buyerWitness.id (key.sign Machine.buyerWitness.id) = true := by
    decide +kernel
  have hsub : [sellerPair, agentPair, sellerPair] ⊆ [sellerPair, agentPair] := by simp
  have hvalid := validly_endorsed (w := Machine.buyerWitness) (by decide) (by decide +kernel)
    fun key hkey => hkeys key (hsub hkey)
  refine ⟨_, rfl, hvalid, ?_, hvalid.valid.2 ⟨?_, ?_⟩⟩
  · rw [hvalid.order]
    decide +kernel
  · decide
  · simp [endorse]

end Witness

end JointEscrow
