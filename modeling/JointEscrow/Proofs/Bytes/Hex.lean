import JointEscrow.Bytes.Hex
import JointEscrow.Proofs.Checks
import Mathlib.Tactic.IntervalCases

/-!
# Reading back written digits

Bytes written in hexadecimal digits are read back as they were, of any number (`decode_encode`) and
of a fixed number (`decodeExactly_encode`).
-/

namespace JointEscrow

theorem utf8EncodeChar_of_lt {c : Char} (h : c.toNat < 128) :
    String.utf8EncodeChar c = [UInt8.ofNat c.toNat] := by
  have hsmall : c.val.toNat ≤ 127 := Nat.le_of_lt_succ h
  unfold String.utf8EncodeChar
  rw [if_pos hsmall]
  rfl

/-- The bytes of a text are those of its characters. -/
theorem utf8_ofList (cs : List Char) :
    utf8 (String.ofList cs) = cs.flatMap String.utf8EncodeChar := by
  unfold utf8
  rw [String.toByteArray_ofList]
  unfold List.utf8Encode
  rw [List.data_toByteArray, List.toList_toArray]

/-- A text of ASCII characters has one byte a character. -/
theorem utf8_ofList_of_lt {cs : List Char} (h : ∀ c ∈ cs, c.toNat < 128) :
    utf8 (String.ofList cs) = cs.map fun c => UInt8.ofNat c.toNat := by
  rw [utf8_ofList]
  induction cs with
  | nil => rfl
  | cons c r ih =>
    rw [List.flatMap_cons, utf8EncodeChar_of_lt (h c List.mem_cons_self),
      ih fun a ha => h a (List.mem_cons_of_mem _ ha)]
    rfl

/-- What writes something for every item writes at least as much as there are items. -/
theorem length_le_length_flatMap {α β : Type} {f : α → List β} (h : ∀ a, f a ≠ []) (l : List α) :
    l.length ≤ (l.flatMap f).length := by
  induction l with
  | nil => exact Nat.zero_le _
  | cons a r ih =>
    have hpos := List.length_pos_of_ne_nil (h a)
    rw [List.flatMap_cons, List.length_append, List.length_cons]
    omega

/-- Every character of a text has at least one byte. -/
theorem length_le_utf8 (cs : List Char) : cs.length ≤ (utf8 (String.ofList cs)).length := by
  rw [utf8_ofList]
  exact length_le_length_flatMap (fun _ => String.utf8EncodeChar_ne_nil) cs

namespace Hex

theorem toNat_digit_lt {n : Nat} (h : n < 16) : (digit n).toNat < 128 := by
  interval_cases n <;> decide

theorem digitValue?_digit {n : Nat} (h : n < 16) :
    digitValue? (UInt8.ofNat (digit n).toNat) = some n := by
  interval_cases n <;> decide

theorem readDigit_digit {n : Nat} (h : n < 16) (i : Nat) :
    readDigit (UInt8.ofNat (digit n).toNat) i = .ok n := by
  unfold readDigit
  rw [digitValue?_digit h]

/-- The halves of a byte. -/
theorem halves_lt (b : UInt8) : b.toNat / 16 < 16 ∧ b.toNat % 16 < 16 := by
  have hb := b.toNat_lt
  omega

theorem digits_cons (b : UInt8) (r : List UInt8) :
    digits (b :: r) = digit (b.toNat / 16) :: digit (b.toNat % 16) :: digits r := rfl

@[simp] theorem length_digits (bytes : List UInt8) : (digits bytes).length = 2 * bytes.length := by
  induction bytes with
  | nil => rfl
  | cons b r ih =>
    rw [digits_cons, List.length_cons, List.length_cons, ih, List.length_cons]
    omega

theorem toNat_lt_of_mem_digits {bytes : List UInt8} {c : Char} (h : c ∈ digits bytes) :
    c.toNat < 128 := by
  obtain ⟨b, -, hc⟩ := List.mem_flatMap.1 h
  obtain ⟨hhigh, hlow⟩ := halves_lt b
  rcases List.mem_cons.1 hc with rfl | hc
  · exact toNat_digit_lt hhigh
  · rw [List.mem_singleton.1 hc]
    exact toNat_digit_lt hlow

theorem utf8_encode (bytes : List UInt8) :
    utf8 (encode bytes) = (digits bytes).map fun c => UInt8.ofNat c.toNat :=
  utf8_ofList_of_lt fun _ => toNat_lt_of_mem_digits

theorem length_utf8_encode (bytes : List UInt8) :
    (utf8 (encode bytes)).length = 2 * bytes.length := by
  rw [utf8_encode, List.length_map, length_digits]

theorem readPairs_digits (bytes : List UInt8) (i : Nat) :
    readPairs i ((digits bytes).map fun c => UInt8.ofNat c.toNat) = .ok bytes := by
  induction bytes generalizing i with
  | nil => rfl
  | cons b r ih =>
    obtain ⟨hhigh, hlow⟩ := halves_lt b
    have hbyte : UInt8.ofNat (16 * (b.toNat / 16) + b.toNat % 16) = b := by
      rw [Nat.div_add_mod, UInt8.ofNat_toNat]
    rw [digits_cons, List.map_cons, List.map_cons, readPairs, readDigit_digit hhigh,
      readDigit_digit hlow, ih]
    change Except.ok (UInt8.ofNat (16 * (b.toNat / 16) + b.toNat % 16) :: r) = _
    rw [hbyte]

theorem decode_encode (bytes : List UInt8) : decode (encode bytes) = .ok bytes := by
  have heven : (utf8 (encode bytes)).length % 2 ≠ 1 := by
    rw [length_utf8_encode]
    omega
  unfold decode
  rw [if_neg heven, utf8_encode, readPairs_digits]

theorem decodeExactly_encode {n : Nat} (v : Vector UInt8 n) :
    decodeExactly n (encode v.toList) = .ok v := by
  have hlength : (utf8 (encode v.toList)).length = 2 * n := by
    rw [length_utf8_encode, Vector.length_toList]
  have hread : readPairs 0 (utf8 (encode v.toList)) = .ok v.toList := by
    rw [utf8_encode, readPairs_digits]
  unfold decodeExactly
  rw [if_neg (by omega), dif_pos hlength]
  -- the reader has no other pairs before it than those read back above
  split
  · next e he =>
    rw [hread] at he
    cases he
  · next out hout =>
    rw [hread] at hout
    cases hout
    rfl

end Hex

end JointEscrow
