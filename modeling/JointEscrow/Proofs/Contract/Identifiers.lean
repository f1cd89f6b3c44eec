import JointEscrow.Proofs.Contract.Templates
import JointEscrow.Proofs.Payout.Encoding
import Mathlib.Data.List.Perm.Basic

/-!
# What identifiers identify

The identifier of a contract is the digest of its templates, sorted and put together without
separators, and that of a settlement the digest of a template followed by its inputs. Sorting makes
the first one depend on the templates alone and not on how they are listed or labelled. Since a
template delimits itself, the bytes can be taken apart in one way only: they tell the outputs of
every path, and of a settlement the outputs and what each input is.
-/

namespace JointEscrow

/-! ## Sorted templates -/

theorem perm_sortBytes (l : List (List UInt8)) : (sortBytes l).Perm l := List.mergeSort_perm _ _

theorem decides_bytes : DecidesOrder (fun a b : List UInt8 => !decide (b < a)) (· ≤ ·) := by
  constructor
  · intro a b
    rw [Bool.not_eq_true', decide_eq_false_iff_not, List.not_lt]
  · intro a b c hab hbc
    exact List.le_trans (α := UInt8) hab hbc
  · exact List.le_total (α := UInt8)
  · intro a b hab hba
    exact List.le_antisymm (α := UInt8) hab hba

theorem sortBytes_eq_iff {l r : List (List UInt8)} : sortBytes l = sortBytes r ↔ l.Perm r :=
  decides_bytes.mergeSort_eq_iff

/-- What is read from templates are the bytes that their digits write. -/
theorem mapM_bytes_eq_ok_iff {outputs : List SpendTemplate} {templates : List (List UInt8)} :
    outputs.mapM SpendTemplate.bytes = .ok templates ↔
      List.Forall₂ (fun txhex bytes => Hex.decode txhex = .ok bytes) (outputs.map (·.txhex))
        templates := by
  rw [mapM_eq_ok_iff, List.forall₂_map_left_iff]
  simp only [SpendTemplate.bytes, mapError_eq_ok_iff]

/-- Neither the order of the templates nor their labels change the identifier. -/
theorem contractId_of_perm {outputs others : List SpendTemplate} {id cid : Digest} {time : UInt64}
    (hperm : (outputs.map (·.txhex)).Perm (others.map (·.txhex)))
    (h : contractId others id time = .ok cid) : contractId outputs id time = .ok cid := by
  obtain ⟨templates, htemplates, hcid⟩ := bind_eq_ok_iff.1 h
  obtain ⟨bytes, hbytes, hsame⟩ :=
    List.perm_comp_forall₂ hperm (mapM_bytes_eq_ok_iff.1 htemplates)
  refine bind_eq_ok_iff.2 ⟨bytes, mapM_bytes_eq_ok_iff.2 hbytes, ?_⟩
  rw [← hcid, contractBytes, contractBytes, sortBytes_eq_iff.2 hsame]

/-! ## Templates put together -/

variable {a b : List TxOutput} {built built' : List (List TxOutput)}
  {outputs : List SpendTemplate}

/-- The templates hold these lists of outputs, under any labels. -/
def Holds (outputs : List SpendTemplate) (built : List (List TxOutput)) : Prop :=
  outputs.map (·.txhex) = built.map fun outs => Hex.encode (encodeTemplate outs)

theorem Holds.contractId (h : Holds outputs built) (id : Digest) (time : UInt64) :
    contractId outputs id time =
      .ok (.ofBytes (contractBytes (built.map encodeTemplate) id time)) := by
  have hbytes : outputs.mapM SpendTemplate.bytes = .ok (built.map encodeTemplate) := by
    rw [mapM_bytes_eq_ok_iff, h, List.forall₂_map_left_iff, List.forall₂_map_right_iff,
      List.forall₂_same]
    intro outs _
    exact Hex.decode_encode _
  exact bind_eq_ok_iff.2 ⟨_, hbytes, rfl⟩

/-- Templates that follow each other without separators are told apart: each ends where its count
says, and none is empty. -/
theorem eq_of_flatMap_encodeTemplate (hbuilt : ∀ outs ∈ built, Writable outs)
    (hbuilt' : ∀ outs ∈ built', Writable outs)
    (h : built.flatMap encodeTemplate = built'.flatMap encodeTemplate) : built = built' := by
  induction built generalizing built' with
  | nil =>
    cases built' with
    | nil => rfl
    | cons b r =>
      rw [List.flatMap_nil, List.flatMap_cons] at h
      exact absurd (List.append_eq_nil_iff.1 h.symm).1 (encodeTemplate_ne_nil b)
  | cons a l ih =>
    cases built' with
    | nil =>
      rw [List.flatMap_nil, List.flatMap_cons] at h
      exact absurd (List.append_eq_nil_iff.1 h).1 (encodeTemplate_ne_nil a)
    | cons b r =>
      rw [List.forall_mem_cons] at hbuilt hbuilt'
      rw [List.flatMap_cons, List.flatMap_cons] at h
      obtain ⟨rfl, hrest⟩ := eq_of_encodeTemplate_append hbuilt.1 hbuilt'.1 h
      rw [ih hbuilt.2 hbuilt'.2 hrest]

/-- Sorting the bytes sorts the lists of outputs that they stand for. -/
theorem exists_sorted_built (built : List (List TxOutput)) :
    ∃ sorted : List (List TxOutput), sortBytes (built.map encodeTemplate) =
      sorted.map encodeTemplate ∧ sorted.Perm built := by
  have hsorted : Relation.Comp (· = List.map encodeTemplate ·) List.Perm
      (sortBytes (built.map encodeTemplate)) built := by
    rw [List.eq_map_comp_perm]
    exact perm_sortBytes _
  exact hsorted

theorem contractBytes_eq_iff {id id' : Digest} {time time' : UInt64}
    (hbuilt : ∀ outs ∈ built, Writable outs) (hbuilt' : ∀ outs ∈ built', Writable outs) :
    contractBytes (built.map encodeTemplate) id time =
        contractBytes (built'.map encodeTemplate) id' time' ↔
      id = id' ∧ time = time' ∧ built.Perm built' := by
  constructor
  · intro h
    obtain ⟨sorted, hsorted, hperm⟩ := exists_sorted_built built
    obtain ⟨sorted', hsorted', hperm'⟩ := exists_sorted_built built'
    unfold contractBytes at h
    rw [hsorted, hsorted', ← List.flatMap_def, ← List.flatMap_def, List.append_assoc,
      List.append_assoc] at h
    obtain ⟨hid, h⟩ := List.append_inj h (by rw [Vector.length_toList, Vector.length_toList])
    obtain ⟨htime, h⟩ := List.append_inj h (by rw [length_bigEndian, length_bigEndian])
    have hsame : sorted = sorted' := by
      apply eq_of_flatMap_encodeTemplate _ _ h
      · exact fun outs houts => hbuilt outs (hperm.subset houts)
      · exact fun outs houts => hbuilt' outs (hperm'.subset houts)
    refine ⟨?_, ?_, hperm.symm.trans (hsame ▸ hperm')⟩
    · cases id
      cases id'
      exact congrArg Digest.mk (Vector.toList_inj.1 hid)
    · exact UInt64.toNat_inj.1 (bigEndian_injective (k := 8) time.toNat_lt time'.toNat_lt htime)
  · rintro ⟨rfl, rfl, hperm⟩
    unfold contractBytes
    rw [sortBytes_eq_iff.2 (hperm.map _)]

/-! ## Inputs -/

/-- What the identifier of a settlement says of an input: everything but its script. -/
def Utxo.written (u : Utxo) : Digest × UInt32 × UInt64 := (u.txid, u.vout, u.value)

theorem Utxo.length_encode (u : Utxo) : u.encode.length = 44 := by
  unfold encode
  rw [List.length_append, List.length_append, length_littleEndian, length_littleEndian,
    Vector.length_toList]

theorem Utxo.encode_eq_iff {u v : Utxo} : u.encode = v.encode ↔ u.written = v.written := by
  obtain ⟨⟨txid⟩, vout, value, script⟩ := u
  obtain ⟨⟨txid'⟩, vout', value', script'⟩ := v
  simp only [written, Prod.mk.injEq, Digest.mk.injEq]
  unfold encode
  constructor
  · intro h
    rw [List.append_assoc, List.append_assoc] at h
    obtain ⟨htxid, h⟩ := List.append_inj h (by rw [Vector.length_toList, Vector.length_toList])
    obtain ⟨hvout, hvalue⟩ := eq_of_littleEndian_append vout.toNat_lt vout'.toNat_lt h
    exact ⟨Vector.toList_inj.1 htxid, UInt32.toNat_inj.1 hvout,
      UInt64.toNat_inj.1 (littleEndian_injective (k := 8) value.toNat_lt value'.toNat_lt hvalue)⟩
  · rintro ⟨rfl, rfl, rfl⟩
    rfl

/-- Inputs are as wide as each other, so their bytes are told apart by counting. -/
theorem Utxo.flatMap_encode_eq_iff {inputs inputs' : List Utxo} :
    inputs.flatMap Utxo.encode = inputs'.flatMap Utxo.encode ↔
      inputs.map Utxo.written = inputs'.map Utxo.written := by
  induction inputs generalizing inputs' with
  | nil =>
    cases inputs' with
    | nil => simp
    | cons v r =>
      have hne : v.encode ≠ [] := List.ne_nil_of_length_pos (by rw [length_encode]; decide)
      simp [hne]
  | cons u l ih =>
    cases inputs' with
    | nil =>
      have hne : u.encode ≠ [] := List.ne_nil_of_length_pos (by rw [length_encode]; decide)
      simp [hne]
    | cons v r =>
      rw [List.flatMap_cons, List.flatMap_cons, List.map_cons, List.map_cons, List.cons.injEq,
        ← ih, ← encode_eq_iff]
      constructor
      · intro h
        exact List.append_inj h (by rw [length_encode, length_encode])
      · rintro ⟨hfirst, hrest⟩
        rw [hfirst, hrest]

theorem settlementBytes_eq_iff {inputs inputs' : List Utxo} (ha : Writable a) (hb : Writable b) :
    settlementBytes (encodeTemplate a) inputs = settlementBytes (encodeTemplate b) inputs' ↔
      a = b ∧ inputs.map Utxo.written = inputs'.map Utxo.written := by
  rw [← Utxo.flatMap_encode_eq_iff]
  unfold settlementBytes
  constructor
  · exact eq_of_encodeTemplate_append ha hb
  · rintro ⟨rfl, hinputs⟩
    rw [hinputs]

/-! ## Both identifiers -/

/-- The identifier of a contract does not depend on the order and the labels of its templates. The
bytes that it is the digest of are the same only for the same proposal, time and outputs of all
paths, and those of a settlement only for the same outputs and inputs. -/
theorem identifiers_tell_outputs :
    (∀ (outputs others : List SpendTemplate) (id : Digest) (time : UInt64),
      (outputs.map (·.txhex)).Perm (others.map (·.txhex)) →
        (contractId outputs id time).toOption = (contractId others id time).toOption) ∧
    (∀ (outputs : List SpendTemplate) (built built' : List (List TxOutput)) (id id' : Digest)
      (time time' : UInt64), Holds outputs built → (∀ outs ∈ built, Writable outs) →
        (∀ outs ∈ built', Writable outs) →
          contractId outputs id time =
              .ok (.ofBytes (contractBytes (built.map encodeTemplate) id time)) ∧
            (contractBytes (built.map encodeTemplate) id time =
                contractBytes (built'.map encodeTemplate) id' time' ↔
              id = id' ∧ time = time' ∧ built.Perm built')) ∧
    ∀ (a b : List TxOutput) (inputs inputs' : List Utxo), Writable a → Writable b →
      settlementId (encodeTemplate a) inputs =
          .ok (.ofBytes (settlementBytes (encodeTemplate a) inputs)) ∧
        (settlementBytes (encodeTemplate a) inputs = settlementBytes (encodeTemplate b) inputs' ↔
          a = b ∧ inputs.map Utxo.written = inputs'.map Utxo.written) := by
  refine ⟨?_, ?_, ?_⟩
  · intro outputs others id time hperm
    apply Option.ext
    intro cid
    rw [toOption_eq_some_iff, toOption_eq_some_iff]
    exact ⟨contractId_of_perm hperm.symm, contractId_of_perm hperm⟩
  · intro outputs built built' id id' time time' hholds hbuilt hbuilt'
    exact ⟨hholds.contractId id time, contractBytes_eq_iff hbuilt hbuilt'⟩
  · intro a b inputs inputs' ha hb
    exact ⟨settlementId_encodeTemplate a inputs, settlementBytes_eq_iff ha hb⟩

/-- Two outputs with scripts of different lengths. -/
def firstShare : TxOutput := ⟨500, [0x51]⟩

def secondShare : TxOutput := ⟨400, [0x51, 0x20]⟩

/-- The shares on two paths, and on one. -/
def sharesApart : List (List TxOutput) := [[firstShare], [secondShare]]

def sharesTogether : List (List TxOutput) := [[firstShare, secondShare]]

/-- The templates of the shares on two paths. -/
def shareTemplates : List SpendTemplate :=
  [⟨"draw", Hex.encode (encodeTemplate [firstShare])⟩,
    ⟨"win", Hex.encode (encodeTemplate [secondShare])⟩]

/-- Shares on two paths are told apart from shares on one, and a settlement from the one with its
deposit left out; the templates listed backwards under one label identify the same contract. -/
theorem shares_told_apart :
    (contractId shareTemplates .zero 0).toOption =
        (contractId (shareTemplates.reverse.map fun t => ⟨"draw", t.txhex⟩) .zero 0).toOption ∧
      contractBytes (sharesApart.map encodeTemplate) .zero 0 ≠
          contractBytes (sharesTogether.map encodeTemplate) .zero 0 ∧
        settlementBytes (encodeTemplate [firstShare]) [⟨.zero, 0, 900, []⟩] ≠
          settlementBytes (encodeTemplate [firstShare]) [] := by
  obtain ⟨horder, hcontract, hsettlement⟩ := identifiers_tell_outputs
  have hwritable : ∀ outs ∈ sharesApart ++ sharesTogether, Writable outs := by
    intro outs houts
    simp only [sharesApart, sharesTogether, List.cons_append, List.nil_append, List.mem_cons,
      List.not_mem_nil, or_false] at houts
    rcases houts with rfl | rfl | rfl <;> exact ⟨by decide, by decide⟩
  rw [List.forall_mem_append] at hwritable
  refine ⟨?_, ?_, ?_⟩
  · apply horder
    rw [List.map_map]
    exact (List.reverse_perm shareTemplates).symm.map _
  · intro h
    obtain ⟨-, hbytes⟩ := hcontract shareTemplates sharesApart sharesTogether .zero .zero 0 0 rfl
      hwritable.1 hwritable.2
    obtain ⟨-, -, hperm⟩ := hbytes.1 h
    exact absurd hperm.length_eq (by decide)
  · intro h
    have hshare := hwritable.1 [firstShare] List.mem_cons_self
    obtain ⟨-, hbytes⟩ := hsettlement _ _ _ _ hshare hshare
    exact absurd (hbytes.1 h).2 (by decide)

end JointEscrow
