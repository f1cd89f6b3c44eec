import JointEscrow.Proofs.Bytes.Hex
import Mathlib.Data.List.Induction

/-!
# Texts of digits

A text is read as bytes exactly when it consists of hexadecimal digits, two a byte, and it is what
these bytes are written as but for the case of its letters (`decodeExactly_eq_ok_iff`). The reader
looks at the bytes of a text and a character may have several, but none of a character beyond ASCII
is taken for a digit.
-/

namespace JointEscrow

/-! ## Bytes and characters -/

theorem exists_le_utf8EncodeChar {c : Char} (h : 128 ≤ c.toNat) :
    ∃ b ∈ String.utf8EncodeChar c, 128 ≤ b.toNat := by
  have hlarge : ¬ c.val.toNat ≤ 127 := Nat.not_le.2 h
  unfold String.utf8EncodeChar
  rw [if_neg hlarge]
  -- the first byte tells how many follow
  split_ifs
  all_goals
    refine ⟨_, List.mem_cons_self, ?_⟩
    rw [UInt8.toNat_ofNat']
    omega

/-- A text all of whose bytes are below 128 has no other characters. -/
theorem lt_of_utf8_lt {s : String} (h : ∀ b ∈ utf8 s, b.toNat < 128) :
    ∀ c ∈ s.toList, c.toNat < 128 := by
  intro c hc
  by_contra hlarge
  obtain ⟨b, hb, hle⟩ := exists_le_utf8EncodeChar (Nat.le_of_not_lt hlarge)
  have hmem : b ∈ utf8 s := by
    rw [← String.ofList_toList (s := s), utf8_ofList]
    exact List.mem_flatMap.2 ⟨c, hc, hb⟩
  exact absurd (h b hmem) (Nat.not_lt.2 hle)

theorem utf8_of_lt {s : String} (h : ∀ c ∈ s.toList, c.toNat < 128) :
    utf8 s = s.toList.map fun c => UInt8.ofNat c.toNat := by
  rw [← utf8_ofList_of_lt h, String.ofList_toList]

/-- Characters beyond ASCII are told by their bytes. -/
theorem forall_utf8_lt_iff {s : String} :
    (∀ b ∈ utf8 s, b.toNat < 128) ↔ ∀ c ∈ s.toList, c.toNat < 128 := by
  constructor
  · exact lt_of_utf8_lt
  · intro h b hb
    rw [utf8_of_lt h] at hb
    obtain ⟨c, hc, rfl⟩ := List.mem_map.1 hb
    have hlt := h c hc
    rw [UInt8.toNat_ofNat']
    omega

namespace Hex

/-! ## Digits -/

/-- A digit, of either case if it is a letter. -/
def IsDigit (c : Char) : Prop :=
  '0' ≤ c ∧ c ≤ '9' ∨ 'a' ≤ c ∧ c ≤ 'f' ∨ 'A' ≤ c ∧ c ≤ 'F'

instance (c : Char) : Decidable (IsDigit c) :=
  inferInstanceAs (Decidable ('0' ≤ c ∧ c ≤ '9' ∨ 'a' ≤ c ∧ c ≤ 'f' ∨ 'A' ≤ c ∧ c ≤ 'F'))

theorem lt_of_isDigit {c : Char} (h : IsDigit c) : c.toNat < 128 := by
  rcases h with ⟨-, h⟩ | ⟨-, h⟩ | ⟨-, h⟩
  all_goals exact Nat.lt_of_le_of_lt (UInt32.le_iff_toNat_le.1 h) (by decide)

theorem lt_of_digitValue? {b : UInt8} {n : Nat} (h : digitValue? b = some n) :
    b.toNat < 128 ∧ n < 16 := by
  unfold digitValue? at h
  dsimp only at h
  split at h
  · cases h
    omega
  · split at h
    · cases h
      omega
    · split at h
      · cases h
        omega
      · cases h

/-- The table of all digits: a digit has the value whose own digit it is, in lower case. -/
theorem digitValue?_table : ∀ m < 128, ∀ n < 16,
    (digitValue? (UInt8.ofNat m) = some n ↔
      IsDigit (Char.ofNat m) ∧ digit n = (Char.ofNat m).toLower) := by
  decide +kernel

theorem readDigit_eq_ok_iff {c : Char} (hc : c.toNat < 128) {i n : Nat} :
    readDigit (UInt8.ofNat c.toNat) i = .ok n ↔
      n < 16 ∧ IsDigit c ∧ digit n = c.toLower := by
  have hvalue : readDigit (UInt8.ofNat c.toNat) i = .ok n ↔
      digitValue? (UInt8.ofNat c.toNat) = some n := by
    unfold readDigit
    cases digitValue? (UInt8.ofNat c.toNat) <;> simp
  rw [hvalue]
  have htable := digitValue?_table c.toNat hc n
  rw [Char.ofNat_toNat] at htable
  constructor
  · intro h
    have hn := (lt_of_digitValue? h).2
    exact ⟨hn, (htable hn).1 h⟩
  · rintro ⟨hn, h⟩
    exact (htable hn).2 h

/-! ## Texts -/

theorem lt_of_readPairs {i : Nat} {bytes out : List UInt8} (h : readPairs i bytes = .ok out) :
    ∀ b ∈ bytes, b.toNat < 128 := by
  have hdigit : ∀ {b : UInt8} {i n : Nat}, readDigit b i = .ok n → b.toNat < 128 := by
    intro b i n hread
    unfold readDigit at hread
    split at hread
    · next hvalue => exact (lt_of_digitValue? hvalue).1
    · cases hread
  fun_induction readPairs i bytes generalizing out with
  | case1 i => simp
  | case2 i a => cases h
  | case3 i a b rest ih =>
    simp only [bind_eq_ok_iff] at h
    obtain ⟨high, hhigh, low, hlow, tail, htail, -⟩ := h
    simp only [List.forall_mem_cons]
    exact ⟨hdigit hhigh, hdigit hlow, ih htail⟩

/-- The byte of two halves is written with the digits of both. -/
theorem digits_cons_of_halves {high low : Nat} (hhigh : high < 16) (hlow : low < 16)
    (r : List UInt8) :
    digits (UInt8.ofNat (16 * high + low) :: r) = digit high :: digit low :: digits r := by
  have hbyte : (UInt8.ofNat (16 * high + low)).toNat = 16 * high + low := by
    rw [UInt8.toNat_ofNat']
    omega
  have hfirst : (16 * high + low) / 16 = high := by omega
  have hsecond : (16 * high + low) % 16 = low := by omega
  rw [digits_cons, hbyte, hfirst, hsecond]

/-- Pairs of digits are read as the bytes that are written with them, in lower case. -/
theorem readPairs_eq_ok_iff {cs : List Char} (hascii : ∀ c ∈ cs, c.toNat < 128) {i : Nat}
    {out : List UInt8} :
    readPairs i (cs.map fun c => UInt8.ofNat c.toNat) = .ok out ↔
      (∀ c ∈ cs, IsDigit c) ∧ digits out = cs.map Char.toLower := by
  induction cs using List.twoStepInduction generalizing i out with
  | nil =>
    cases out with
    | nil => simp [readPairs, digits]
    | cons b r => simp [readPairs, digits_cons]
  | singleton c =>
    -- bytes are never written with one digit
    have hodd : digits out ≠ [c.toLower] := by
      intro h
      have hlength := congrArg List.length h
      rw [length_digits, List.length_singleton] at hlength
      omega
    simp [readPairs, hodd]
  | cons_cons c d r ih _ =>
    simp only [List.forall_mem_cons] at hascii ⊢
    obtain ⟨hc, hd, hr⟩ := hascii
    simp only [List.map_cons, readPairs, bind_eq_ok_iff, pure_eq_ok_iff, readDigit_eq_ok_iff hc,
      readDigit_eq_ok_iff hd, ih hr]
    constructor
    · rintro ⟨high, ⟨hhigh, hdc, hwc⟩, low, ⟨hlow, hdd, hwd⟩, tail, ⟨hdr, hwr⟩, rfl⟩
      refine ⟨⟨hdc, hdd, hdr⟩, ?_⟩
      rw [digits_cons_of_halves hhigh hlow, hwc, hwd, hwr]
    · rintro ⟨⟨hdc, hdd, hdr⟩, hwritten⟩
      cases out with
      | nil => cases hwritten
      | cons b tail =>
        rw [digits_cons] at hwritten
        simp only [List.cons.injEq] at hwritten
        obtain ⟨hwc, hwd, hwr⟩ := hwritten
        obtain ⟨hhigh, hlow⟩ := halves_lt b
        refine ⟨b.toNat / 16, ⟨hhigh, hdc, hwc⟩, b.toNat % 16, ⟨hlow, hdd, hwd⟩, tail,
          ⟨hdr, hwr⟩, ?_⟩
        rw [Nat.div_add_mod, UInt8.ofNat_toNat]

/-- The text consists of so many digits. -/
structure OfDigits (n : Nat) (s : String) : Prop where
  length : s.length = n
  all : ∀ c ∈ s.toList, IsDigit c

theorem OfDigits.lt {n : Nat} {s : String} (h : OfDigits n s) : ∀ c ∈ s.toList, c.toNat < 128 :=
  fun c hc => lt_of_isDigit (h.all c hc)

theorem OfDigits.length_utf8 {n : Nat} {s : String} (h : OfDigits n s) :
    (utf8 s).length = n := by
  rw [utf8_of_lt h.lt, List.length_map, String.length_toList, h.length]

/-- A text of digits is one of fewer digits and one of the others. -/
theorem ofDigits_add_iff {m n : Nat} {s : String} :
    OfDigits (m + n) s ↔ OfDigits m (String.ofList (s.toList.take m)) ∧
      OfDigits n (String.ofList (s.toList.drop m)) := by
  constructor
  · rintro ⟨hlength, hall⟩
    rw [← String.length_toList] at hlength
    refine ⟨⟨?_, ?_⟩, ⟨?_, ?_⟩⟩
    · rw [String.length_ofList, List.length_take]
      omega
    · intro c hc
      rw [String.toList_ofList] at hc
      exact hall c (List.mem_of_mem_take hc)
    · rw [String.length_ofList, List.length_drop]
      omega
    · intro c hc
      rw [String.toList_ofList] at hc
      exact hall c (List.mem_of_mem_drop hc)
  · rintro ⟨⟨hfirst, hallFirst⟩, ⟨hsecond, hallSecond⟩⟩
    rw [String.length_ofList] at hfirst hsecond
    rw [String.toList_ofList] at hallFirst hallSecond
    refine ⟨?_, ?_⟩
    · rw [← String.length_toList, ← List.take_append_drop m s.toList, List.length_append, hfirst,
        hsecond]
    · intro c hc
      rw [← List.take_append_drop m s.toList, List.mem_append] at hc
      exact hc.elim (hallFirst c) (hallSecond c)

theorem decodeExactly_eq_readPairs {n : Nat} {s : String} {v : Vector UInt8 n} :
    decodeExactly n s = .ok v ↔ readPairs 0 (utf8 s) = .ok v.toList := by
  unfold decodeExactly
  dsimp only
  constructor
  · intro h
    split at h
    · cases h
    · split at h
      · split at h
        · cases h
        · next out hout =>
          cases h
          exact hout
      · cases h
  · intro h
    have hlength := length_of_readPairs h
    rw [Vector.length_toList] at hlength
    rw [if_neg (by omega), dif_pos hlength]
    split
    · next e he =>
      rw [h] at he
      cases he
    · next out hout =>
      rw [h] at hout
      cases hout
      rfl

/-- A text is read as so many bytes exactly when it consists of twice as many digits, which are, in
lower case, what the bytes are written with. -/
theorem decodeExactly_eq_ok_iff {n : Nat} {s : String} {v : Vector UInt8 n} :
    decodeExactly n s = .ok v ↔ OfDigits (2 * n) s ∧ encode v.toList = s.toLower := by
  have hwritten : encode v.toList = s.toLower ↔ digits v.toList = s.toList.map Char.toLower := by
    unfold encode String.toLower
    rw [← String.toList_inj, String.toList_ofList, String.toList_map]
  rw [decodeExactly_eq_readPairs, hwritten]
  constructor
  · intro h
    have hascii := lt_of_utf8_lt (lt_of_readPairs h)
    rw [utf8_of_lt hascii, readPairs_eq_ok_iff hascii] at h
    refine ⟨⟨?_, h.1⟩, h.2⟩
    have hlength := congrArg List.length h.2
    rw [length_digits, Vector.length_toList, List.length_map, String.length_toList] at hlength
    exact hlength.symm
  · rintro ⟨hdigits, hsame⟩
    rw [utf8_of_lt hdigits.lt, readPairs_eq_ok_iff hdigits.lt]
    exact ⟨hdigits.all, hsame⟩

theorem digit_toLower_table : ∀ m < 128, IsDigit (Char.ofNat m) →
    ∃ n < 16, digit n = (Char.ofNat m).toLower := by
  decide +kernel

theorem exists_digit {c : Char} (h : IsDigit c) : ∃ n < 16, digit n = c.toLower := by
  have htable := digit_toLower_table c.toNat (lt_of_isDigit h)
  rw [Char.ofNat_toNat] at htable
  exact htable h

/-- An even number of digits is what some bytes are written with, in lower case. -/
theorem exists_digits {cs : List Char} (hdigits : ∀ c ∈ cs, IsDigit c) {n : Nat}
    (hlength : cs.length = 2 * n) : ∃ out, digits out = cs.map Char.toLower := by
  induction cs using List.twoStepInduction generalizing n with
  | nil => exact ⟨[], rfl⟩
  | singleton c =>
    rw [List.length_singleton] at hlength
    omega
  | cons_cons c d r ih _ =>
    simp only [List.forall_mem_cons] at hdigits
    obtain ⟨hc, hd, hr⟩ := hdigits
    obtain ⟨high, hhigh, hwc⟩ := exists_digit hc
    obtain ⟨low, hlow, hwd⟩ := exists_digit hd
    rw [List.length_cons, List.length_cons] at hlength
    obtain ⟨tail, hwr⟩ := ih (n := n - 1) hr (by omega)
    refine ⟨UInt8.ofNat (16 * high + low) :: tail, ?_⟩
    rw [digits_cons_of_halves hhigh hlow, hwc, hwd, hwr]
    rfl

theorem exists_decodeExactly_iff {n : Nat} {s : String} :
    (∃ v, decodeExactly n s = .ok v) ↔ OfDigits (2 * n) s := by
  constructor
  · rintro ⟨v, hv⟩
    exact (decodeExactly_eq_ok_iff.1 hv).1
  · intro hdigits
    have hlength := hdigits.length
    rw [← String.length_toList] at hlength
    obtain ⟨out, hout⟩ := exists_digits hdigits.all hlength
    have hsize : out.toArray.size = n := by
      have hwritten := congrArg List.length hout
      rw [length_digits, List.length_map, hlength] at hwritten
      rw [List.size_toArray]
      omega
    refine ⟨⟨out.toArray, hsize⟩, decodeExactly_eq_readPairs.2 ?_⟩
    rw [utf8_of_lt hdigits.lt]
    exact (readPairs_eq_ok_iff hdigits.lt).2 ⟨hdigits.all, hout⟩

end Hex

end JointEscrow
