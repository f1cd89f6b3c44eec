import JointEscrow.Payout.PathOutputs
import JointEscrow.Proofs.Checks
import Mathlib.Algebra.Group.Nat.Defs

/-!
# What a template stands for

The encoding of outputs delimits itself: it tells its outputs whatever bytes come after it
(`eq_of_encodeTemplate_append`). Counts and lengths are written in four bytes, so this is for lists
that they can count (`Writable`); the outputs of a path are of that kind, since an address is a
34-byte script.
-/

namespace JointEscrow

variable {a b : List TxOutput} {o p : TxOutput} {x y : List UInt8}

/-- Both the outputs and the bytes of each script can be counted in four bytes. -/
structure Writable (outs : List TxOutput) : Prop where
  count : outs.length < 2 ^ 32
  scripts : ∀ o ∈ outs, o.script.length < 2 ^ 32

/-- A number of a fixed width is read off the front of what follows it. -/
theorem eq_of_littleEndian_append {k m n : Nat} (hm : m < capacity k) (hn : n < capacity k)
    (h : littleEndian k m ++ x = littleEndian k n ++ y) : m = n ∧ x = y := by
  have hlength : (littleEndian k m).length = (littleEndian k n).length := by
    rw [length_littleEndian, length_littleEndian]
  obtain ⟨hnumber, hrest⟩ := List.append_inj h hlength
  exact ⟨littleEndian_injective hm hn hnumber, hrest⟩

theorem eq_of_encode_append (ho : o.script.length < 2 ^ 32) (hp : p.script.length < 2 ^ 32)
    (h : o.encode ++ x = p.encode ++ y) : o = p ∧ x = y := by
  obtain ⟨value, script⟩ := o
  obtain ⟨value', script'⟩ := p
  unfold TxOutput.encode at h
  simp only [List.append_assoc] at h
  obtain ⟨hvalue, h⟩ := eq_of_littleEndian_append value.toNat_lt value'.toNat_lt h
  obtain ⟨hlength, h⟩ := eq_of_littleEndian_append ho hp h
  obtain ⟨rfl, hrest⟩ := List.append_inj h hlength
  obtain rfl := UInt64.toNat_inj.1 hvalue
  exact ⟨rfl, hrest⟩

/-- Of as many outputs, each ends where the next one begins. -/
theorem eq_of_flatMap_encode_append (hcount : a.length = b.length)
    (ha : ∀ o ∈ a, o.script.length < 2 ^ 32) (hb : ∀ o ∈ b, o.script.length < 2 ^ 32)
    (h : a.flatMap TxOutput.encode ++ x = b.flatMap TxOutput.encode ++ y) : a = b ∧ x = y := by
  induction a generalizing b with
  | nil =>
    obtain rfl := List.length_eq_zero_iff.1 hcount.symm
    exact ⟨rfl, h⟩
  | cons o a ih =>
    cases b with
    | nil => exact absurd hcount (Nat.succ_ne_zero _)
    | cons p b =>
      rw [List.forall_mem_cons] at ha hb
      rw [List.flatMap_cons, List.flatMap_cons, List.append_assoc, List.append_assoc] at h
      obtain ⟨rfl, hrest⟩ := eq_of_encode_append ha.1 hb.1 h
      obtain ⟨rfl, hend⟩ := ih (Nat.succ.inj hcount) ha.2 hb.2 hrest
      exact ⟨rfl, hend⟩

/-- A template tells its outputs, whatever comes after it. -/
theorem eq_of_encodeTemplate_append (ha : Writable a) (hb : Writable b)
    (h : encodeTemplate a ++ x = encodeTemplate b ++ y) : a = b ∧ x = y := by
  unfold encodeTemplate at h
  simp only [List.append_assoc, List.append_cancel_left_eq] at h
  -- the count stands before the outputs, so there are as many of them
  obtain ⟨hcount, h⟩ := eq_of_littleEndian_append ha.count hb.count h
  obtain ⟨rfl, hrest⟩ := eq_of_flatMap_encode_append hcount ha.scripts hb.scripts h
  exact ⟨rfl, List.append_cancel_left hrest⟩

theorem encodeTemplate_injective (ha : Writable a) (hb : Writable b)
    (h : encodeTemplate a = encodeTemplate b) : a = b := by
  have happend : encodeTemplate a ++ [] = encodeTemplate b ++ [] := by rw [h]
  exact (eq_of_encodeTemplate_append ha hb happend).1

/-- Even the template of no outputs has its version, its count and its lock time. -/
theorem twelve_le_length_encodeTemplate (outs : List TxOutput) :
    12 ≤ (encodeTemplate outs).length := by
  unfold encodeTemplate
  simp only [List.length_append, length_littleEndian]
  omega

theorem encodeTemplate_ne_nil (outs : List TxOutput) : encodeTemplate outs ≠ [] := by
  have hlength := twelve_le_length_encodeTemplate outs
  exact List.ne_nil_of_length_pos (by omega)

/-- A template is never too short for an identifier. -/
theorem settlementId_encodeTemplate (outs : List TxOutput) (inputs : List Utxo) :
    settlementId (encodeTemplate outs) inputs =
      .ok (.ofBytes (settlementBytes (encodeTemplate outs) inputs)) := by
  have hlength := twelve_le_length_encodeTemplate outs
  exact if_neg (by omega)

/-! ## The outputs of a path -/

theorem length_of_addressScript {address : String} {script : List UInt8}
    (h : addressScript address = .ok script) : script.length = 34 := by
  unfold addressScript at h
  split at h
  · rw [← Except.ok.inj h, List.length_cons, List.length_cons, Vector.length_toList]
  · cases h

theorem writable_of_pathOutputs {label : String} {paths : List PathEntry}
    {payments : List Payment} {outs : List TxOutput}
    (h : pathOutputs label paths payments = .ok outs) (hcount : outs.length < 2 ^ 32) :
    Writable outs := by
  refine ⟨hcount, ?_⟩
  intro o ho
  obtain ⟨payment, -, houtput⟩ := exists_of_mem_mapM h ho
  obtain ⟨script, hscript, hpays⟩ := bind_eq_ok_iff.1 houtput
  obtain rfl := pure_eq_ok_iff.1 hpays
  show script.length < 2 ^ 32
  rw [length_of_addressScript hscript]
  decide

end JointEscrow
