import JointEscrow.Proofs.Bytes.Hex
import JointEscrow.Sorted.Key

/-!
# The order of texts

Texts are compared by their code points, and that is how their bytes compare (`utf8_lt_iff`): of two
characters the smaller has the smaller bytes, and they differ before either of them ends, whatever
follows (`utf8EncodeChar_append_lt`).
-/

namespace JointEscrow

theorem toNat_lt_of_char (c : Char) : c.val.toNat < 0x110000 := by
  have hvalid : c.val.toNat < 0xd800 ∨ 0xdfff < c.val.toNat ∧ c.val.toNat < 0x110000 := c.valid
  omega

/-- The bytes of a smaller character come first, with anything after them. -/
theorem utf8EncodeChar_append_lt {c d : Char} (h : c < d) (r s : List UInt8) :
    String.utf8EncodeChar c ++ r < String.utf8EncodeChar d ++ s := by
  have hlt : c.val.toNat < d.val.toNat := h
  have hbound := toNat_lt_of_char d
  unfold String.utf8EncodeChar
  simp only
  generalize c.val.toNat = m at *
  generalize d.val.toNat = n at *
  -- the digits of a code point in base 64, each small enough to stand in a byte
  have hthird : ∀ v, v / 4096 = v / 64 / 64 := by omega
  have hfourth : ∀ v, v / 262144 = v / 64 / 64 / 64 := by omega
  have hfollowing : ∀ v, (v % 64 + 128) % 256 = v % 64 + 128 := by omega
  have hleading : ∀ v, (v % 8 + 240) % 256 = v % 8 + 240 := by omega
  split_ifs <;>
    simp only [List.cons_append, List.nil_append, List.cons_lt_cons_iff, UInt8.lt_iff_toNat_lt,
      ← UInt8.toNat_inj, UInt8.toNat_ofNat', Nat.reducePow, hthird, hfourth, hfollowing,
      hleading] <;>
    omega

theorem flatMap_utf8_lt {cs ds : List Char} (h : cs < ds) :
    cs.flatMap String.utf8EncodeChar < ds.flatMap String.utf8EncodeChar := by
  induction h with
  | @nil d r =>
    rw [List.flatMap_cons]
    cases hd : String.utf8EncodeChar d with
    | nil => exact absurd hd String.utf8EncodeChar_ne_nil
    | cons b bs => exact List.nil_lt_cons _ _
  | @rel c r d s hcd =>
    rw [List.flatMap_cons, List.flatMap_cons]
    exact utf8EncodeChar_append_lt hcd _ _
  | @cons c r s _ ih =>
    rw [List.flatMap_cons, List.flatMap_cons]
    exact List.append_left_lt ih

/-- Texts are in the order of their bytes. -/
theorem utf8_lt_iff {s t : String} : utf8 s < utf8 t ↔ s < t := by
  have hforward : ∀ {a b : String}, a < b → utf8 a < utf8 b := by
    intro a b hab
    rw [← String.ofList_toList (s := a), ← String.ofList_toList (s := b), utf8_ofList, utf8_ofList]
    exact flatMap_utf8_lt hab
  refine ⟨fun h => ?_, hforward⟩
  by_contra hnot
  by_cases hback : t < s
  · exact List.lt_asymm h (hforward hback)
  · rw [KeyOrder.connected s t hnot hback] at h
    exact List.lt_irrefl _ h

end JointEscrow
