import JointEscrow.Notary.Log
import JointEscrow.Proofs.Bytes.Hex

/-!
# Notarized proofs

The text of a proof is read back as the digest and the signature that it was written from
(`parseProof_proofText`), so a notarized proof passes its check exactly where the signature verifies
(`verifyProof_notarize_iff`). A log takes a proof of a fresh status at its end.
-/

namespace JointEscrow

/-! ## The text of a proof -/

theorem digest_ofHex_hex (d : Digest) : Digest.ofHex d.hex = .ok d := by
  have hlength : (utf8 d.hex).length = 64 := by
    unfold Digest.hex
    rw [Hex.length_utf8_encode, Vector.length_toList]
  unfold Digest.ofHex
  rw [if_neg (by simp [hlength])]
  unfold Digest.hex
  rw [Hex.decodeExactly_encode]

theorem signature_ofHex_hex (s : Signature) : Signature.ofHex s.hex = .ok s := by
  unfold Signature.ofHex Signature.hex
  rw [Hex.decodeExactly_encode]
  rfl

theorem toList_proofText (d : Digest) (s : Signature) :
    (proofText d s).toList = Hex.digits d.bytes.toList ++ Hex.digits s.bytes.toList := by
  unfold proofText Digest.hex Signature.hex Hex.encode
  rw [String.toList_append, String.toList_ofList, String.toList_ofList]

/-- The digest and the signature are read back from the text that they were written to. -/
theorem parseProof_proofText (d : Digest) (s : Signature) :
    parseProof (proofText d s) = .ok (d, s) := by
  have hchars := toList_proofText d s
  have hascii : ∀ c ∈ (proofText d s).toList, c.toNat < 128 := by
    intro c hc
    rw [hchars, List.mem_append] at hc
    exact hc.elim Hex.toNat_lt_of_mem_digits Hex.toNat_lt_of_mem_digits
  have hsize : (utf8 (proofText d s)).length = 192 := by
    rw [← String.ofList_toList (s := proofText d s), utf8_ofList_of_lt hascii, List.length_map,
      hchars, List.length_append, Hex.length_digits, Hex.length_digits, Vector.length_toList,
      Vector.length_toList]
  have hplain : (proofText d s).toList.any (fun c => 128 ≤ c.toNat) = false := by
    rw [List.any_eq_false]
    intro c hc
    simpa using hascii c hc
  have hdigits : (Hex.digits d.bytes.toList).length = 64 := by
    rw [Hex.length_digits, Vector.length_toList]
  have hfirst : String.ofList ((proofText d s).toList.take 64) = d.hex := by
    rw [hchars, List.take_left' hdigits]
    rfl
  have hsecond : String.ofList ((proofText d s).toList.drop 64) = s.hex := by
    rw [hchars, List.drop_left' hdigits]
    rfl
  unfold parseProof
  simp only [hsize, hplain, hfirst, hsecond, digest_ofHex_hex, signature_ofHex_hex]
  rfl

/-- A proof passes its check when it is the authority's signature over the note, with the note's own
digest before it. -/
theorem verifyProof_eq_ok_iff {note : Note} {proof : String} {authority : PublicKey} :
    verifyProof note proof authority = .ok () ↔
      note.pubkey = authority ∧ ∃ sig, parseProof proof = .ok (note.id, sig) ∧
        authority.verifies note.id sig = true := by
  unfold verifyProof
  -- the identifier is a digest that no step here should compute
  generalize note.id = d
  by_cases hauthority : note.pubkey = authority
  · rw [if_neg (not_not_intro hauthority), bind_eq_ok_iff]
    constructor
    · rintro ⟨⟨digest, sig⟩, hparse, h⟩
      dsimp only at h
      split at h
      · cases h
      · next hdigest =>
        obtain rfl : digest = d := not_not.1 hdigest
        split at h
        · next hverifies => exact ⟨hauthority, sig, hparse, hverifies⟩
        · cases h
    · rintro ⟨-, sig, hparse, hverifies⟩
      refine ⟨(d, sig), hparse, ?_⟩
      simp only [ne_eq, not_true_eq_false, if_false, hverifies, if_true]
  · rw [if_pos hauthority]
    simp [hauthority]

/-- A written proof passes its check when it is of this note and its signature verifies. -/
theorem verifyProof_proofText_iff {note : Note} {d : Digest} {sig : Signature}
    {authority : PublicKey} :
    verifyProof note (proofText d sig) authority = .ok () ↔
      note.pubkey = authority ∧ d = note.id ∧ authority.verifies d sig = true := by
  rw [verifyProof_eq_ok_iff, parseProof_proofText]
  generalize note.id = id
  constructor
  · rintro ⟨hauthority, s, heq, hverifies⟩
    cases heq
    exact ⟨hauthority, rfl, hverifies⟩
  · rintro ⟨hauthority, rfl, hverifies⟩
    exact ⟨hauthority, sig, rfl, hverifies⟩

/-- A proof passes its check exactly when its signature verifies over the note it was made for. -/
theorem verifyProof_notarize_iff {σ : Type} (status : σ) {note : Note} {key : KeyPair}
    (hauthority : note.pubkey = key.publicKey) :
    verifyProof note (notarize status note key).proof key.publicKey = .ok () ↔
      key.publicKey.verifies note.id (key.sign note.id) = true := by
  unfold notarize
  rw [verifyProof_proofText_iff]
  constructor
  · rintro ⟨-, -, hverifies⟩
    exact hverifies
  · intro hverifies
    exact ⟨hauthority, rfl, hverifies⟩

/-! ## Logs of proofs -/

theorem ProofLog.update?_of_fresh {σ : Type} [DecidableEq σ] {log : ProofLog σ} {e : ProofEntry σ}
    (h : ∀ x ∈ log, x.status ≠ e.status) : log.update? e = some (log ++ [e]) := by
  induction log with
  | nil => rfl
  | cons first rest ih =>
    have hfirst := h first List.mem_cons_self
    have hrest := ih fun x hx => h x (List.mem_cons_of_mem _ hx)
    -- only the last entry could be replaced, so it is told apart from the others
    cases rest with
    | nil => rw [update?, if_neg hfirst, List.singleton_append]
    | cons second more =>
      rw [update?, if_neg hfirst, hrest, Option.map_some]
      · rfl
      · exact List.cons_ne_nil second more

end JointEscrow
