import JointEscrow.Proofs.Bytes.Digits
import JointEscrow.Proofs.Notary

/-!
# The text of a proof, cut at a byte

A proof is cut in the middle of its text by a number of bytes, and a character may have several: a
cut inside of one has no result. The text is therefore taken apart only once all its characters are
known to be single bytes, so that each text is either read or refused (`parseByCut?_eq_some`). It is
read exactly if it consists of digits, and then as what is written with them
(`parseProof_eq_ok_iff`).
-/

namespace JointEscrow

/-! ## Cutting a text -/

/-- The two parts of a text at one of its bytes. There are none if the byte is inside a character or
beyond the end. -/
def cutAt? : Nat → List Char → Option (List Char × List Char)
  | 0, cs => some ([], cs)
  | _ + 1, [] => none
  | n + 1, c :: cs =>
    if c.utf8Size ≤ n + 1 then
      (cutAt? (n + 1 - c.utf8Size) cs).map fun parts => (c :: parts.1, parts.2)
    else none

theorem parts_of_cutAt? {n : Nat} {cs first second : List Char}
    (h : cutAt? n cs = some (first, second)) :
    first ++ second = cs ∧ (first.map Char.utf8Size).sum = n := by
  fun_induction cutAt? n cs generalizing first second with
  | case1 cs =>
    cases h
    exact ⟨rfl, rfl⟩
  | case2 n => cases h
  | case3 n c cs hfits ih =>
    obtain ⟨⟨rest, second⟩, hrest, hparts⟩ := Option.map_eq_some_iff.1 h
    cases hparts
    obtain ⟨rfl, hsum⟩ := ih hrest
    refine ⟨rfl, ?_⟩
    rw [List.map_cons, List.sum_cons, hsum]
    omega
  | case4 n c cs hlong => cases h

theorem cutAt?_append (first second : List Char) :
    cutAt? (first.map Char.utf8Size).sum (first ++ second) = some (first, second) := by
  induction first with
  | nil => simp [cutAt?]
  | cons c rest ih =>
    have hsize : (c.utf8Size - 1) + 1 = c.utf8Size := Nat.sub_add_cancel (Char.utf8Size_pos c)
    have hsum : ((c :: rest).map Char.utf8Size).sum =
        (c.utf8Size - 1 + (rest.map Char.utf8Size).sum) + 1 := by
      rw [List.map_cons, List.sum_cons]
      omega
    have hleft : c.utf8Size - 1 + (rest.map Char.utf8Size).sum + 1 - c.utf8Size =
        (rest.map Char.utf8Size).sum := by omega
    rw [hsum, List.cons_append, cutAt?, if_pos (by omega), hleft, ih]
    rfl

/-- A text is cut into two parts exactly if they make it up and the first has so many bytes. -/
theorem cutAt?_eq_some_iff {n : Nat} {cs first second : List Char} :
    cutAt? n cs = some (first, second) ↔
      first ++ second = cs ∧ (first.map Char.utf8Size).sum = n := by
  constructor
  · exact parts_of_cutAt?
  · rintro ⟨rfl, rfl⟩
    exact cutAt?_append first second

theorem utf8Size_of_lt {c : Char} (h : c.toNat < 128) : c.utf8Size = 1 :=
  Char.utf8Size_eq_one_iff.2 (UInt32.le_iff_toNat_le.2 (Nat.le_of_lt_succ h))

/-- A text of single bytes is cut after as many characters. -/
theorem cutAt?_of_lt {cs : List Char} (hascii : ∀ c ∈ cs, c.toNat < 128) {n : Nat}
    (hn : n ≤ cs.length) : cutAt? n cs = some (cs.take n, cs.drop n) := by
  have hsizes : (cs.take n).map Char.utf8Size = List.replicate n 1 := by
    rw [List.map_eq_replicate_iff.2 fun c hc => utf8Size_of_lt (hascii c (List.mem_of_mem_take hc)),
      List.length_take_of_le hn]
  rw [cutAt?_eq_some_iff, hsizes, List.sum_replicate_nat, Nat.mul_one]
  exact ⟨List.take_append_drop n cs, rfl⟩

theorem toLower_eq_append (n : Nat) (s : String) :
    s.toLower = (String.ofList (s.toList.take n)).toLower ++
      (String.ofList (s.toList.drop n)).toLower := by
  unfold String.toLower
  rw [← String.toList_inj, String.toList_append, String.toList_map, String.toList_map,
    String.toList_map, String.toList_ofList, String.toList_ofList, ← List.map_append,
    List.take_append_drop]

theorem length_toLower (s : String) : s.toLower.length = s.length := by
  unfold String.toLower
  rw [← String.length_toList, String.toList_map, List.length_map, String.length_toList]

/-! ## The two parts -/

theorem digest_ofHex_eq_ok_iff {s : String} {d : Digest} :
    Digest.ofHex s = .ok d ↔ Hex.OfDigits 64 s ∧ d.hex = s.toLower := by
  have hread : Digest.ofHex s = .ok d ↔ Hex.decodeExactly 32 s = .ok d.bytes := by
    unfold Digest.ofHex
    constructor
    · intro h
      split at h
      · cases h
      · split at h
        · next bytes hbytes =>
          cases h
          exact hbytes
        · cases h
    · intro h
      have hdigits := (Hex.decodeExactly_eq_ok_iff.1 h).1
      rw [if_neg (not_not_intro hdigits.length_utf8), h]
  rw [hread, Hex.decodeExactly_eq_ok_iff]
  rfl

theorem length_hex (d : Digest) : d.hex.length = 64 := by
  unfold Digest.hex Hex.encode
  rw [String.length_ofList, Hex.length_digits, Vector.length_toList]

theorem signature_ofHex_eq_ok_iff {s : String} {sig : Signature} :
    Signature.ofHex s = .ok sig ↔ Hex.OfDigits 128 s ∧ sig.hex = s.toLower := by
  have hread : Signature.ofHex s = .ok sig ↔ Hex.decodeExactly 64 s = .ok sig.bytes := by
    unfold Signature.ofHex
    constructor
    · intro h
      cases hbytes : Hex.decodeExactly 64 s with
      | error e =>
        rw [hbytes] at h
        cases h
      | ok bytes =>
        rw [hbytes] at h
        cases h
        rfl
    · intro h
      rw [h]
      rfl
  rw [hread, Hex.decodeExactly_eq_ok_iff]
  rfl

/-- The digest and the signature that two texts write. -/
def readParts (first second : String) : Except NotaryError (Digest × Signature) := do
  let digest ← (Digest.ofHex first).mapError fun e => .malformedProof (.digest e)
  let signature ← (Signature.ofHex second).mapError fun e => .malformedProof (.signature e)
  return (digest, signature)

theorem readParts_eq_ok_iff {first second : String} {d : Digest} {sig : Signature} :
    readParts first second = .ok (d, sig) ↔
      Digest.ofHex first = .ok d ∧ Signature.ofHex second = .ok sig := by
  unfold readParts
  simp only [bind_eq_ok_iff, mapError_eq_ok_iff, pure_eq_ok_iff, Prod.mk.injEq]
  constructor
  · rintro ⟨_, hfirst, _, hsecond, rfl, rfl⟩
    exact ⟨hfirst, hsecond⟩
  · rintro ⟨hfirst, hsecond⟩
    exact ⟨d, hfirst, sig, hsecond, rfl, rfl⟩

/-! ## The whole text -/

/-- A proof read by its bytes alone: their number and size, then a cut after 64 of them. There is no
result if the text has no such cut. -/
def parseByCut? (proof : String) : Option (Except NotaryError (Digest × Signature)) :=
  let bytes := utf8 proof
  if bytes.length ≠ 192 ∨ bytes.any (fun b => 128 ≤ b.toNat) then
    some (.error (.malformedProof (.length bytes.length)))
  else
    (cutAt? 64 proof.toList).map fun parts =>
      readParts (String.ofList parts.1) (String.ofList parts.2)

theorem any_eq_false_iff_lt {cs : List Char} :
    (cs.any fun c => 128 ≤ c.toNat) = false ↔ ∀ c ∈ cs, c.toNat < 128 := by
  simp only [List.any_eq_false, decide_eq_true_eq, Nat.not_le]

theorem any_utf8_eq (s : String) :
    ((utf8 s).any fun b => 128 ≤ b.toNat) = s.toList.any fun c => 128 ≤ c.toNat := by
  have hfalse : ((utf8 s).any fun b => 128 ≤ b.toNat) = false ↔
      (s.toList.any fun c => 128 ≤ c.toNat) = false := by
    rw [any_eq_false_iff_lt, ← forall_utf8_lt_iff]
    simp only [List.any_eq_false, decide_eq_true_eq, Nat.not_le]
  rw [← Bool.not_eq_true, ← Bool.not_eq_true, not_iff_not] at hfalse
  exact Bool.eq_iff_iff.2 hfalse

theorem parseProof_eq (proof : String) :
    parseProof proof =
      if (utf8 proof).length ≠ 192 ∨ proof.toList.any (fun c => 128 ≤ c.toNat) then
        .error (.malformedProof (.length (utf8 proof).length))
      else
        readParts (String.ofList (proof.toList.take 64))
          (String.ofList (proof.toList.drop 64)) := rfl

/-- The cut of a proof is never inside a character, so every text has a result. -/
theorem parseByCut?_eq_some (proof : String) : parseByCut? proof = some (parseProof proof) := by
  unfold parseByCut?
  rw [parseProof_eq]
  dsimp only
  rw [any_utf8_eq]
  split
  · rfl
  · next hplain =>
    rw [not_or, not_not, Bool.not_eq_true, any_eq_false_iff_lt] at hplain
    obtain ⟨hsize, hascii⟩ := hplain
    have hlong : 64 ≤ proof.toList.length := by
      rw [utf8_of_lt hascii, List.length_map] at hsize
      omega
    rw [cutAt?_of_lt hascii hlong, Option.map_some]

/-- Here the two bytes of a letter are on both sides of the place of the cut. -/
example : ∃ proof : String, (utf8 proof).length = 192 ∧ cutAt? 64 proof.toList = none ∧
    parseProof proof = .error (.malformedProof (.length 192)) :=
  ⟨String.ofList (List.replicate 63 '0' ++ 'é' :: List.replicate 127 '0'), by decide +kernel⟩

/-- A proof is read from a text of digits alone, from its two parts. -/
theorem parseProof_eq_ok_iff_parts {proof : String} {d : Digest} {sig : Signature} :
    parseProof proof = .ok (d, sig) ↔
      Digest.ofHex (String.ofList (proof.toList.take 64)) = .ok d ∧
        Signature.ofHex (String.ofList (proof.toList.drop 64)) = .ok sig := by
  rw [parseProof_eq, ← readParts_eq_ok_iff]
  constructor
  · intro h
    split at h
    · cases h
    · exact h
  · intro h
    obtain ⟨hfirst, hsecond⟩ := readParts_eq_ok_iff.1 h
    have hdigits : Hex.OfDigits (64 + 128) proof := Hex.ofDigits_add_iff.2
      ⟨(digest_ofHex_eq_ok_iff.1 hfirst).1, (signature_ofHex_eq_ok_iff.1 hsecond).1⟩
    rw [if_neg]
    · exact h
    · rw [not_or, not_not, Bool.not_eq_true, any_eq_false_iff_lt]
      exact ⟨hdigits.length_utf8, hdigits.lt⟩

/-- What a proof is read as is written with the digits of the proof, in lower case. -/
theorem parseProof_eq_ok_iff {proof : String} {d : Digest} {sig : Signature} :
    parseProof proof = .ok (d, sig) ↔
      Hex.OfDigits 192 proof ∧ d.hex ++ sig.hex = proof.toLower := by
  have hlower := toLower_eq_append 64 proof
  rw [parseProof_eq_ok_iff_parts, digest_ofHex_eq_ok_iff, signature_ofHex_eq_ok_iff, hlower]
  constructor
  · rintro ⟨⟨hfirst, hd⟩, hsecond, hsig⟩
    refine ⟨Hex.ofDigits_add_iff.2 ⟨hfirst, hsecond⟩, ?_⟩
    rw [hd, hsig]
  · rintro ⟨hdigits, hwritten⟩
    obtain ⟨hfirst, hsecond⟩ := (Hex.ofDigits_add_iff (m := 64) (n := 128)).1 hdigits
    rw [← String.toList_inj, String.toList_append, String.toList_append] at hwritten
    obtain ⟨hd, hsig⟩ := List.append_inj hwritten <| by
      rw [String.length_toList, String.length_toList, length_hex, length_toLower, hfirst.length]
    exact ⟨⟨hfirst, String.toList_inj.1 hd⟩, hsecond, String.toList_inj.1 hsig⟩

/-- Every text of 192 digits is a proof, and no other text is. -/
theorem exists_parseProof_iff {proof : String} :
    (∃ parts, parseProof proof = .ok parts) ↔ Hex.OfDigits 192 proof := by
  constructor
  · rintro ⟨⟨d, sig⟩, hparse⟩
    exact (parseProof_eq_ok_iff.1 hparse).1
  · intro hdigits
    obtain ⟨hfirst, hsecond⟩ := (Hex.ofDigits_add_iff (m := 64) (n := 128)).1 hdigits
    obtain ⟨d, hd⟩ := Hex.exists_decodeExactly_iff (n := 32).2 hfirst
    obtain ⟨sig, hsig⟩ := Hex.exists_decodeExactly_iff (n := 64).2 hsecond
    have hd' : Digest.ofHex (String.ofList (proof.toList.take 64)) = .ok ⟨d⟩ :=
      digest_ofHex_eq_ok_iff.2 (Hex.decodeExactly_eq_ok_iff.1 hd)
    have hsig' : Signature.ofHex (String.ofList (proof.toList.drop 64)) = .ok ⟨sig⟩ :=
      signature_ofHex_eq_ok_iff.2 (Hex.decodeExactly_eq_ok_iff.1 hsig)
    exact ⟨(⟨d⟩, ⟨sig⟩), parseProof_eq_ok_iff_parts.2 ⟨hd', hsig'⟩⟩

/-! ## Proofs of notes -/

/-- Each text is either read or refused, and what is read are the texts of 192 digits, as what they
write. The proof of a note is read as the note's digest and its signature. A proof passes its check
if it is the authority's own signature of the digest of the authority's own note. -/
theorem proofs_parse_exactly :
    (∀ proof, parseByCut? proof = some (parseProof proof)) ∧
    (∀ proof, (∃ parts, parseProof proof = .ok parts) ↔ Hex.OfDigits 192 proof) ∧
    (∀ proof d sig, parseProof proof = .ok (d, sig) ↔
      Hex.OfDigits 192 proof ∧ d.hex ++ sig.hex = proof.toLower) ∧
    (∀ {σ : Type} (status : σ) (note : Note) (key : KeyPair),
      parseProof (notarize status note key).proof = .ok (note.id, key.sign note.id)) ∧
    (∀ {σ : Type} (note : Note) (entry : ProofEntry σ) (authority : PublicKey),
      verifyProof note entry.proof authority = .ok () ↔
        note.pubkey = authority ∧ ∃ sig, parseProof entry.proof = .ok (note.id, sig) ∧
          authority.verifies note.id sig = true) ∧
    (∀ {σ : Type} (status : σ) (note : Note) (key : KeyPair) (authority : PublicKey),
      verifyProof note (notarize status note key).proof authority = .ok () ↔
        note.pubkey = authority ∧ authority.verifies note.id (key.sign note.id) = true) := by
  refine ⟨parseByCut?_eq_some, fun _ => exists_parseProof_iff, fun _ _ _ => parseProof_eq_ok_iff,
    fun _ note key => parseProof_proofText note.id (key.sign note.id),
    fun _ _ _ => verifyProof_eq_ok_iff, ?_⟩
  intro σ status note key authority
  unfold notarize
  rw [verifyProof_proofText_iff]
  constructor
  · rintro ⟨hauthority, -, hverifies⟩
    exact ⟨hauthority, hverifies⟩
  · rintro ⟨hauthority, hverifies⟩
    exact ⟨hauthority, rfl, hverifies⟩

end JointEscrow
