import JointEscrow.Machine.Clock
import JointEscrow.Notary.Log
import JointEscrow.Notary.Receipt
import JointEscrow.Proofs.Records

/-!
# Records of a machine and of a notary read back

Machine states with all that they hold, the requests that they take, and notes, proofs and receipts
are read back from their forms. The two tables of a machine are read back because a table in key
order is what is built from its own entries.
-/

namespace JointEscrow

/-! ## Signatures -/

@[simp] theorem restored_signature (s : Signature) : Restored s := by
  refine ⟨.str s.hex, ?_⟩
  show (Signature.ofHex s.hex).toOption = some s
  rw [signature_ofHex_hex]
  rfl

@[simp] theorem restored_endorsement (e : Endorsement) : Restored e := by
  constructor
  · exact .obj (by simp [Restored.plain])
  · exact Row.read_obj (by simp) (List.Sublist.refl _)
      (by simp [Row.required, List.lookup_cons, Restored.reads])

/-! ## Parts of a machine -/

@[simp] theorem restored_pathState (p : PathState) : Restored p := by
  refine ⟨.str p.name, ?_⟩
  cases p <;> rfl

instance : LawfulKeyForm Action where
  ofKey?_toKey a := by cases a <;> rfl

/-- Both patterns of the program were written. -/
def Program.Written (p : Program) : Prop := p.actions.Written ∧ p.paths.Written

theorem Program.Written.restored {p : Program} (h : p.Written) : Restored p := by
  obtain ⟨hactions, hpaths⟩ := h
  have hmembers : Restored p.members := restored_list fun k _ => restored_publicKey k
  constructor
  · exact .obj (by simp [Restored.plain, hactions.restored, hpaths.restored, hmembers])
  · exact Row.read_obj (by simp) (List.Sublist.refl _)
      (by simp [Row.required, List.lookup_cons, Restored.reads, hactions.restored,
        hpaths.restored, hmembers])

@[simp] theorem restored_commit (c : Commit) : Restored c := by
  constructor
  · exact .obj (by simp [Restored.plain])
  · exact Row.read_obj (by simp) (List.Sublist.refl _)
      (by simp [Row.required, List.lookup_cons, Restored.reads])

/-- The pattern of the task was written. -/
def Task.Written (t : Task) : Prop := t.path.Written

theorem Task.Written.restored {t : Task} (h : t.Written) : Restored t := by
  have hpath : Restored t.path := Pattern.Written.restored h
  constructor
  · exact .obj (by simp [Restored.plain, hpath])
  · exact Row.read_obj (by simp) (List.Sublist.refl _)
      (by simp [Row.required, List.lookup_cons, Restored.reads, hpath])

/-! ## Machines -/

namespace Machine

/-- Every pattern of the machine was written. -/
structure Written (m : Machine) : Prop where
  programs : ∀ p ∈ m.programs, p.Written
  tasks : ∀ t ∈ m.tasks, t.Written

theorem restored_store (store : Collected) : Restored store := by
  refine restored_sortedMap fun e _ => restored_sortedMap fun f _ => ?_
  exact restored_sortedSet fun k _ => restored_publicKey k

theorem Written.restored {m : Machine} (h : m.Written) : Restored m := by
  have hpaths : Restored m.paths := restored_sortedMap fun e _ => restored_pathState e.2
  have hprograms : Restored m.programs := restored_list fun p hp => (h.programs p hp).restored
  have hstore := restored_store m.store
  have hcommits : Restored m.commits := restored_list fun c _ => restored_commit c
  have htasks : Restored m.tasks := restored_list fun t ht => (h.tasks t ht).restored
  constructor
  · exact .obj (by simp [Restored.plain, hpaths, hprograms, hstore, hcommits, htasks])
  · refine Row.read_obj (by decide) (List.Sublist.refl _) ?_
    rw [Row.optional_of_form (o := m.output) (by simp [List.lookup_cons]) (by simp),
      Row.optional_of_form (o := m.error) (by simp [List.lookup_cons]) (by simp),
      Row.optional_of_form (o := m.closedAt) (by simp [List.lookup_cons]) (by simp)]
    simp [Row.required, List.lookup_cons, Restored.reads, hpaths, hprograms, hstore, hcommits,
      htasks]

end Machine

/-! ## Requests and firings -/

@[simp] theorem restored_witness (w : Witness) : Restored w := by
  have hendorsements : Restored w.endorsements := restored_list fun e _ => restored_endorsement e
  constructor
  · exact .obj (by simp [Restored.plain, hendorsements])
  · exact Row.read_obj (by simp) (List.Sublist.refl _)
      (by simp [Row.required, Row.withDefault, List.lookup_cons, Restored.reads, hendorsements])

@[simp] theorem restored_request (r : Witness.Request) : Restored r := by
  constructor
  · exact .obj (by simp [Restored.plain])
  · exact Row.read_obj (by simp) (List.Sublist.refl _)
      (by simp [Row.required, List.lookup_cons, Restored.reads])

@[simp] theorem restored_firing (f : Firing) : Restored f := by
  constructor
  · exact .obj (by simp [Restored.plain])
  · exact Row.read_obj (by simp) (List.Sublist.refl _)
      (by simp [Row.required, List.lookup_cons, Restored.reads])

/-! ## Notes, proofs and receipts -/

theorem restored_tags (tags : List (String × String)) : Restored tags :=
  restored_list fun t _ => restored_pair (restored_string t.1) (restored_string t.2)

@[simp] theorem restored_note (n : Note) : Restored n := by
  have htags := restored_tags n.tags
  constructor
  · exact .obj (by simp [Restored.plain, htags])
  · exact Row.read_obj (by simp) (List.Sublist.refl _)
      (by simp [Row.required, List.lookup_cons, Restored.reads, htags])

@[simp] theorem restored_serial (s : Note.Serial) : Restored s := by
  have htags := restored_tags s.note.tags
  constructor
  · refine .arr ?_
    simp [Restored.plain, htags, Json.Plain.num]
  · show (do
      if (0 : UInt64) = 0 then
        return (⟨⟨← ofJson? (toJson s.note.content), ← ofJson? (toJson s.note.createdAt),
          ← ofJson? (toJson s.note.kind), ← ofJson? (toJson s.note.pubkey),
          ← ofJson? (toJson s.note.tags)⟩⟩ : Note.Serial)
      else none) = some s
    simp [Restored.reads, htags]

theorem restored_proofEntry {σ : Type} [JsonForm σ] {e : ProofEntry σ} (h : Restored e.status) :
    Restored e := by
  constructor
  · exact .arr (by simp [Restored.plain, h])
  · show (do return (⟨← ofJson? (toJson e.status), ← ofJson? (toJson e.proof)⟩ :
      ProofEntry σ)) = some e
    simp [Restored.reads, h]

@[simp] theorem restored_checkpoint (c : Checkpoint) : Restored c := by
  constructor
  · exact .obj (by simp [Restored.plain])
  · exact Row.read_obj (by simp) (List.Sublist.refl _)
      (by simp [Row.required, List.lookup_cons, Restored.reads])

@[simp] theorem restored_receipt (r : Receipt) : Restored r := by
  constructor
  · exact .obj (by simp [Restored.plain])
  · exact Row.read_obj (by simp) (List.Sublist.refl _)
      (by simp [Row.required, List.lookup_cons, Restored.reads])

/-! ## Written by being read -/

theorem Program.written_of_ofJson? {j : Json} {p : Program} (h : ofJson? j = some p) :
    p.Written := by
  obtain ⟨row, -, h⟩ := Option.bind_eq_some_iff.1 h
  iterate 2 obtain ⟨_, -, h⟩ := Option.bind_eq_some_iff.1 h
  obtain ⟨actions, hactions, h⟩ := Option.bind_eq_some_iff.1 h
  obtain ⟨paths, hpaths, h⟩ := Option.bind_eq_some_iff.1 h
  iterate 2 obtain ⟨_, -, h⟩ := Option.bind_eq_some_iff.1 h
  cases h
  obtain ⟨a, ha⟩ := Row.exists_of_required hactions
  obtain ⟨b, hb⟩ := Row.exists_of_required hpaths
  exact ⟨Pattern.written_of_ofJson? ha, Pattern.written_of_ofJson? hb⟩

theorem Task.written_of_ofJson? {j : Json} {t : Task} (h : ofJson? j = some t) : t.Written := by
  obtain ⟨row, -, h⟩ := Option.bind_eq_some_iff.1 h
  iterate 2 obtain ⟨_, -, h⟩ := Option.bind_eq_some_iff.1 h
  obtain ⟨path, hpath, h⟩ := Option.bind_eq_some_iff.1 h
  cases h
  obtain ⟨i, hi⟩ := Row.exists_of_required hpath
  exact Pattern.written_of_ofJson? hi

/-- The items of a required list that was read are read, each from some value. -/
theorem Row.exists_of_mem_required {α : Type} [JsonForm α] {row : Row} {name : String} {l : List α}
    (h : row.required name = some l) : ∀ a ∈ l, ∃ j, JsonForm.ofJson? j = some a := by
  obtain ⟨j, hj⟩ := Row.exists_of_required h
  exact exists_of_mem_ofJson? hj

theorem MachineConfig.written_of_ofJson? {j : Json} {c : MachineConfig} (h : ofJson? j = some c) :
    c.Written := by
  obtain ⟨row, -, h⟩ := Option.bind_eq_some_iff.1 h
  iterate 5 obtain ⟨_, -, h⟩ := Option.bind_eq_some_iff.1 h
  obtain ⟨programs, hprograms, h⟩ := Option.bind_eq_some_iff.1 h
  obtain ⟨schedule, hschedule, h⟩ := Option.bind_eq_some_iff.1 h
  cases h
  constructor
  · intro p hp
    obtain ⟨i, hi⟩ := Row.exists_of_mem_required hprograms p hp
    exact ProgramTerms.written_of_ofJson? hi
  · intro e he
    obtain ⟨i, hi⟩ := Row.exists_of_mem_required hschedule e he
    exact ScheduleEntry.written_of_ofJson? hi

theorem Machine.written_of_ofJson? {j : Json} {m : Machine} (h : ofJson? j = some m) :
    m.Written := by
  obtain ⟨row, -, h⟩ := Option.bind_eq_some_iff.1 h
  iterate 8 obtain ⟨_, -, h⟩ := Option.bind_eq_some_iff.1 h
  obtain ⟨programs, hprograms, h⟩ := Option.bind_eq_some_iff.1 h
  iterate 2 obtain ⟨_, -, h⟩ := Option.bind_eq_some_iff.1 h
  obtain ⟨tasks, htasks, h⟩ := Option.bind_eq_some_iff.1 h
  iterate 4 obtain ⟨_, -, h⟩ := Option.bind_eq_some_iff.1 h
  cases h
  constructor
  · intro p hp
    obtain ⟨i, hi⟩ := Row.exists_of_mem_required hprograms p hp
    exact Program.written_of_ofJson? hi
  · intro t ht
    obtain ⟨i, hi⟩ := Row.exists_of_mem_required htasks t ht
    exact Task.written_of_ofJson? hi

end JointEscrow
