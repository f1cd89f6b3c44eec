import JointEscrow.Digest
import JointEscrow.Proofs.Json.RoundTrip
import JointEscrow.Proofs.Sorted

/-!
# Values that are read back from their form

A value is restored when its JSON form is plain and the reader of its type gives the value back. The
reader of its text then does so too (`decode_encode`), and since a digest is taken of that text, two
restored values of one type with the same preimage are equal (`preimage_injective`).
-/

namespace JointEscrow

variable {α β : Type} [JsonForm α] [JsonForm β]

/-- The form of the value is plain, and the value is what is read from it. -/
structure Restored (a : α) : Prop where
  plain : (toJson a).Plain
  reads : ofJson? (toJson a) = some a

theorem form_eq_of_preimage_eq {a : α} {b : β} (ha : (toJson a).Plain) (hb : (toJson b).Plain)
    (h : Digest.preimage a = Digest.preimage b) : toJson a = toJson b :=
  Json.compact_injective ha hb (utf8_injective h)

/-- The form of a value tells the value. -/
theorem form_injective {a b : α} (ha : Restored a) (hb : Restored b) (h : toJson a = toJson b) :
    a = b := by
  have hread := ha.reads
  rw [h, hb.reads] at hread
  exact (Option.some.inj hread).symm

/-- What a digest is taken of tells the value. -/
theorem preimage_injective {a b : α} (ha : Restored a) (hb : Restored b)
    (h : Digest.preimage a = Digest.preimage b) : a = b :=
  form_injective ha hb (form_eq_of_preimage_eq ha.plain hb.plain h)

/-! ## Texts of values -/

/-- The text that a value is written as. -/
def encode (a : α) : String := (toJson a).compact

/-- The value that is read from a text, if there is one. -/
def decode (text : String) : Option α := (Json.parse text).bind ofJson?

theorem decode_encode {a : α} (h : Restored a) : decode (encode a) = some a := by
  unfold decode encode
  rw [Json.parse_compact h.plain, Option.bind_some, h.reads]

theorem exists_of_decode {text : String} {a : α} (h : decode text = some a) :
    ∃ j, ofJson? j = some a := by
  obtain ⟨j, -, hj⟩ := Option.bind_eq_some_iff.1 h
  exact ⟨j, hj⟩

/-! ## Digests that tell values apart -/

namespace Digest

theorem length_link (prior next : Digest) : (link prior next).length = 64 := by
  unfold link
  rw [List.length_append, Vector.length_toList, Vector.length_toList]

theorem link_injective {p q a b : Digest} (h : link p a = link q b) : p = q ∧ a = b := by
  have hlength : p.bytes.toList.length = q.bytes.toList.length := by
    rw [Vector.length_toList, Vector.length_toList]
  obtain ⟨hprior, hnext⟩ := List.append_inj h hlength
  refine ⟨?_, ?_⟩
  · cases p
    cases q
    exact congrArg mk (Vector.toList_inj.1 hprior)
  · cases a
    cases b
    exact congrArg mk (Vector.toList_inj.1 hnext)

/-- The digest whose bytes are those of a number, the largest first. -/
def ofNat (n : Nat) : Digest := ⟨takeBytes 32 (bigEndian 32 n)⟩

/-- No two byte strings of the table have the same digest. -/
def CollisionFree (table : List (List UInt8)) : Prop :=
  ∀ a ∈ table, ∀ b ∈ table, ofBytes a = ofBytes b → a = b

theorem CollisionFree.mono {table part : List (List UInt8)} (h : CollisionFree table)
    (hsub : part ⊆ table) : CollisionFree part := by
  intro a ha b hb
  exact h a (hsub ha) b (hsub hb)

theorem collisionFree_pair_iff {x y : List UInt8} :
    CollisionFree [x, y] ↔ (ofBytes x = ofBytes y → x = y) := by
  constructor
  · intro h
    exact h x List.mem_cons_self y (List.mem_cons_of_mem _ List.mem_cons_self)
  · intro h a ha b hb hsame
    rcases List.mem_pair.1 ha with rfl | rfl
    · rcases List.mem_pair.1 hb with rfl | rfl
      · rfl
      · exact h hsame
    · rcases List.mem_pair.1 hb with rfl | rfl
      · exact (h hsame.symm).symm
      · rfl

end Digest

/-- Where digests do not collide, equal digests come from equal values. -/
theorem eq_of_ofValue_eq {table : List (List UInt8)} (hfree : Digest.CollisionFree table) {a b : α}
    (ha : Restored a) (hb : Restored b) (hamem : Digest.preimage a ∈ table)
    (hbmem : Digest.preimage b ∈ table) (h : Digest.ofValue a = Digest.ofValue b) : a = b :=
  preimage_injective ha hb (hfree _ hamem _ hbmem h)

/-! ## Plain types -/

@[simp] theorem restored_uint64 (n : UInt64) : Restored n := ⟨.num n, rfl⟩

@[simp] theorem restored_string (s : String) : Restored s := ⟨.str s, rfl⟩

@[simp] theorem restored_uint32 (n : UInt32) : Restored n := by
  refine ⟨.num n.toUInt64, ?_⟩
  have hsmall : n.toUInt64.toNat < UInt32.size := by
    rw [UInt32.toNat_toUInt64]
    exact n.toNat_lt_size
  change (if n.toUInt64.toNat < UInt32.size then some n.toUInt64.toUInt32 else none) = some n
  rw [if_pos hsmall, UInt32.toUInt32_toUInt64]

@[simp] theorem restored_bool (b : Bool) : Restored b := ⟨.bool b, rfl⟩

theorem restored_list {l : List α} (h : ∀ a ∈ l, Restored a) : Restored l := by
  constructor
  · refine .arr fun j hj => ?_
    obtain ⟨a, ha, rfl⟩ := List.mem_map.1 hj
    exact (h a ha).plain
  · change (l.map toJson).mapM ofJson? = some l
    induction l with
    | nil => rfl
    | cons a r ih =>
      have hrest := ih fun b hb => h b (List.mem_cons_of_mem a hb)
      rw [List.map_cons, List.mapM_cons, (h a List.mem_cons_self).reads, hrest]
      rfl

theorem ofJson?_option {j : Json} (h : j ≠ .null) :
    (ofJson? j : Option (Option α)) = (ofJson? j).map some := by
  cases j with
  | null => exact absurd rfl h
  | _ => rfl

/-- A value that may be missing is read back where no value is written like a missing one. -/
theorem restored_option {o : Option α} (ha : ∀ a : α, Restored a)
    (hnull : ∀ a : α, toJson a ≠ .null) : Restored o := by
  cases o with
  | none => exact ⟨.null, rfl⟩
  | some a =>
    refine ⟨(ha a).plain, ?_⟩
    show (ofJson? (toJson a) : Option (Option α)) = some (some a)
    rw [ofJson?_option (hnull a), (ha a).reads]
    rfl

@[simp] theorem restored_option_uint64 (o : Option UInt64) : Restored o :=
  restored_option restored_uint64 fun _ => Json.noConfusion

@[simp] theorem restored_option_string (o : Option String) : Restored o :=
  restored_option restored_string fun _ => Json.noConfusion

theorem restored_pair {p : α × β} (ha : Restored p.1) (hb : Restored p.2) : Restored p := by
  constructor
  · exact .arr (by simp [ha.plain, hb.plain])
  · show ((ofJson? (toJson p.1)).bind fun a => (ofJson? (toJson p.2)).bind fun b =>
      some (a, b)) = some p
    rw [ha.reads, hb.reads]
    rfl

/-! ## Sets and tables -/

section Sorted

variable {κ : Type} [LT κ] [DecidableLT κ] [KeyOrder κ]

theorem restored_sortedSet [JsonForm κ] {s : SortedSet κ} (h : ∀ k ∈ s, Restored k) :
    Restored s := by
  have helements : Restored s.elements := restored_list h
  constructor
  · exact helements.plain
  · show (ofJson? (toJson s.elements) : Option (List κ)).map SortedSet.ofList = some s
    rw [helements.reads, Option.map_some, SortedSet.ofList_elements]

/-- Keys that are read back from what they are written as. -/
class LawfulKeyForm (κ : Type) [KeyForm κ] : Prop where
  ofKey?_toKey : ∀ k : κ, ofKey? (toKey k) = some k

instance : LawfulKeyForm String := ⟨fun _ => rfl⟩

omit [LT κ] [DecidableLT κ] [KeyOrder κ] in
theorem mapM_members [KeyForm κ] [LawfulKeyForm κ] {entries : List (κ × α)}
    (h : ∀ e ∈ entries, Restored e.2) :
    (entries.map fun e => (toKey e.1, toJson e.2)).mapM (fun m : String × Json => do
      return (← (ofKey? m.1 : Option κ), ← (ofJson? m.2 : Option α))) = some entries := by
  induction entries with
  | nil => rfl
  | cons e r ih =>
    have hrest := ih fun x hx => h x (List.mem_cons_of_mem e hx)
    rw [List.map_cons, List.mapM_cons, LawfulKeyForm.ofKey?_toKey,
      (h e List.mem_cons_self).reads, hrest]
    rfl

theorem restored_sortedMap [KeyForm κ] [LawfulKeyForm κ] {m : SortedMap κ α}
    (h : ∀ e ∈ m.entries, Restored e.2) : Restored m := by
  constructor
  · refine .obj fun member hmember => ?_
    obtain ⟨e, he, rfl⟩ := List.mem_map.1 hmember
    exact (h e he).plain
  · have hentries := mapM_members h
    show (do let entries ← (m.entries.map fun e => (toKey e.1, toJson e.2)).mapM
              (fun m : String × Json => do
                return (← (ofKey? m.1 : Option κ), ← (ofJson? m.2 : Option α)))
             return SortedMap.ofList entries) = some m
    rw [hentries]
    exact congrArg some (SortedMap.ofList_entries m)

end Sorted

/-! ## Records -/

namespace Row

variable {row : Row} {name : String}

/-- The fields of an object are its members, if they are some of the known ones in their order. -/
theorem ofJson?_obj {names : List String} {needed : Nat} {members : List (String × Json)}
    (hdistinct : names.Nodup) (hsub : (members.map Prod.fst).Sublist names) :
    Row.ofJson? names needed (.obj members) = some members := by
  have hknown : members.filter (fun m => m.1 ∈ names) = members := by
    rw [List.filter_eq_self]
    intro m hm
    exact decide_eq_true (hsub.subset (List.mem_map_of_mem hm))
  change ofMembers? names members = some members
  unfold ofMembers?
  rw [hknown, if_pos (hdistinct.sublist hsub)]

omit [JsonForm α] in
/-- What is read from the members of an object is read from the object. -/
theorem read_obj {names : List String} {needed : Nat} {members : List (String × Json)}
    {f : Row → Option α} {a : α} (hdistinct : names.Nodup)
    (hsub : (members.map Prod.fst).Sublist names) (hread : f members = some a) :
    (Row.ofJson? names needed (.obj members)).bind f = some a := by
  rw [ofJson?_obj hdistinct hsub]
  exact hread

/-- A field that is written as missing without a value is read as it was. -/
theorem optional_of_form {o : Option α} (h : row.lookup name = some (toJson o)) (ho : Restored o) :
    row.optional name = some o := by
  unfold Row.optional
  rw [h]
  exact ho.reads

/-- A field that is left out without a value is read as it was. -/
theorem optional_of_lookup {o : Option α} (h : row.lookup name = o.map toJson)
    (ho : ∀ a ∈ o, Restored a ∧ toJson a ≠ .null) : row.optional name = some o := by
  unfold Row.optional
  rw [h]
  cases o with
  | none => rfl
  | some a =>
    obtain ⟨hrestored, hnull⟩ := ho a rfl
    show (JsonForm.ofJson? (toJson a) : Option (Option α)) = some (some a)
    rw [ofJson?_option hnull, hrestored.reads]
    rfl

end Row

end JointEscrow
