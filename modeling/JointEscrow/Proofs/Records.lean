import JointEscrow.Machine.State
import JointEscrow.Proofs.Checks
import JointEscrow.Proofs.Json.Restored
import JointEscrow.Proofs.Notary

/-!
# Records read back

Digests, keys, the closed vocabularies and the records made of them are read back from their forms.
A pattern is if it was written: if it is what some text says, as the patterns of every record that
was read are (`Proposal.written_of_ofJson?`).
-/

namespace JointEscrow

/-! ## Words and keys -/

@[simp] theorem restored_digest (d : Digest) : Restored d := by
  refine ⟨.str d.hex, ?_⟩
  change (Digest.ofHex d.hex).toOption = some d
  rw [digest_ofHex_hex]
  rfl

@[simp] theorem restored_option_digest (o : Option Digest) : Restored o :=
  restored_option restored_digest fun _ => Json.noConfusion

@[simp] theorem restored_publicKey (k : PublicKey) : Restored k := by
  refine ⟨.str k.hex, ?_⟩
  change (PublicKey.ofHex k.hex).toOption = some k
  unfold PublicKey.ofHex PublicKey.hex
  rw [Hex.decodeExactly_encode]
  rfl

@[simp] theorem restored_network (n : Network) : Restored n := by
  refine ⟨.str n.name, ?_⟩
  cases n <;> rfl

@[simp] theorem restored_method (m : Method) : Restored m := by
  refine ⟨.str m.name, ?_⟩
  cases m
  rfl

@[simp] theorem restored_action (a : Action) : Restored a := by
  refine ⟨.str a.name, ?_⟩
  cases a <;> rfl

/-! ## Patterns -/

namespace Pattern

/-- The pattern is what some text says. -/
def Written (p : Pattern) : Prop := ∃ s, ofText s = .ok p

theorem text_of_ofText {s : String} {p : Pattern} (h : ofText s = .ok p) : p.text = s := by
  unfold ofText at h
  split at h
  · next hany =>
    cases h
    exact hany.symm
  · dsimp only at h
    split at h
    · cases h
      exact Text.joinTexts_splitText '|' s
    · cases h

theorem Written.ofText_text {p : Pattern} (h : p.Written) : ofText p.text = .ok p := by
  obtain ⟨s, hs⟩ := h
  rwa [text_of_ofText hs]

end Pattern

theorem Pattern.Written.restored {p : Pattern} (h : p.Written) : Restored p := by
  refine ⟨.str p.text, ?_⟩
  change (Pattern.ofText p.text).toOption = some p
  rw [h.ofText_text]
  rfl

/-! ## Terms -/

@[simp] theorem restored_pathEntry (e : PathEntry) : Restored e := by
  constructor
  · exact .obj (by simp [Restored.plain])
  · exact Row.read_obj (by simp) (List.Sublist.refl _)
      (by simp [Row.required, List.lookup_cons, Restored.reads])

@[simp] theorem restored_payment (p : Payment) : Restored p := by
  constructor
  · exact .obj (by simp [Restored.plain])
  · exact Row.read_obj (by simp) (List.Sublist.refl _)
      (by simp [Row.required, List.lookup_cons, Restored.reads])

/-- Both patterns of the program were written. -/
def ProgramTerms.Written (p : ProgramTerms) : Prop := p.actions.Written ∧ p.paths.Written

theorem ProgramTerms.Written.restored {p : ProgramTerms} (h : p.Written) : Restored p := by
  obtain ⟨hactions, hpaths⟩ := h
  have hmembers : Restored p.members := restored_list fun k _ => restored_publicKey k
  constructor
  · exact .obj (by simp [Restored.plain, hactions.restored, hpaths.restored, hmembers])
  · exact Row.read_obj (by simp) (List.Sublist.refl _)
      (by simp [Row.required, List.lookup_cons, Row.withDefault, Restored.reads,
        hactions.restored, hpaths.restored, hmembers])

/-- The pattern of the fallback was written. -/
def ScheduleEntry.Written (e : ScheduleEntry) : Prop := e.path.Written

theorem ScheduleEntry.Written.restored {e : ScheduleEntry} (h : e.Written) : Restored e := by
  have hpath : Restored e.path := Pattern.Written.restored h
  constructor
  · exact .obj (by simp [Restored.plain, hpath])
  · exact Row.read_obj (by simp) (List.Sublist.refl _)
      (by simp [Row.required, List.lookup_cons, Restored.reads, hpath])

/-- Every pattern of the configuration was written. -/
structure MachineConfig.Written (c : MachineConfig) : Prop where
  programs : ∀ p ∈ c.programs, p.Written
  schedule : ∀ e ∈ c.schedule, e.Written

theorem MachineConfig.Written.restored {c : MachineConfig} (h : c.Written) : Restored c := by
  have hnames : Restored c.pathnames := restored_list fun s _ => restored_string s
  have hprograms : Restored c.programs := restored_list fun p hp => (h.programs p hp).restored
  have hschedule : Restored c.schedule := restored_list fun e he => (h.schedule e he).restored
  constructor
  · exact .obj (by simp [Restored.plain, hnames, hprograms, hschedule])
  · exact Row.read_obj (by simp) (List.Sublist.refl _)
      (by simp [Row.required, List.lookup_cons, Restored.reads, hnames, hprograms, hschedule])

/-! ## Proposals -/

namespace Proposal

/-- Every pattern of the proposal was written. -/
structure Written (p : Proposal) : Prop where
  programs : ∀ t ∈ p.programs, t.Written
  schedule : ∀ e ∈ p.schedule, e.Written

variable {α : Type} [JsonForm α]

theorem lookup_given (name key : String) (o : Option α) :
    (given name o).lookup key = if key = name then o.map toJson else none := by
  cases o with
  | none => simp [given]
  | some a =>
    by_cases h : key = name
    · simp [given, h]
    · simp [given, h, List.lookup_cons, beq_false_of_ne h]

theorem map_fst_given_sublist (name : String) (o : Option α) :
    ((given name o).map Prod.fst).Sublist [name] := by
  cases o with
  | none => exact List.nil_sublist _
  | some a => exact List.Sublist.refl _

theorem plain_given (name : String) {o : Option α} (ho : ∀ a ∈ o, Restored a ∧ toJson a ≠ .null) :
    ∀ m ∈ given name o, m.2.Plain := by
  cases o with
  | none => simp [given]
  | some a => simpa [given] using (ho a rfl).1.plain

theorem Written.restored {p : Proposal} (h : p.Written) : Restored p := by
  have hpaths : Restored p.paths := restored_list fun e _ => restored_pathEntry e
  have hpayments : Restored p.payments := restored_list fun e _ => restored_payment e
  have hprograms : Restored p.programs := restored_list fun t ht => (h.programs t ht).restored
  have hschedule : Restored p.schedule := restored_list fun e he => (h.schedule e he).restored
  have hnumber : ∀ o : Option UInt64, ∀ n ∈ o, Restored n ∧ toJson n ≠ .null :=
    fun _ n _ => ⟨restored_uint64 n, Json.noConfusion⟩
  have hkey : ∀ k ∈ p.moderator, Restored k ∧ toJson k ≠ .null :=
    fun k _ => ⟨restored_publicKey k, Json.noConfusion⟩
  constructor
  · refine .obj ?_
    simp only [List.forall_mem_append]
    refine ⟨⟨⟨⟨⟨⟨?_, plain_given _ (hnumber _)⟩, plain_given _ (hnumber _)⟩, ?_⟩,
      plain_given _ (hnumber _)⟩, plain_given _ hkey⟩, ?_⟩
    all_goals simp [Restored.plain, hpaths, hpayments, hprograms, hschedule]
  · refine Row.read_obj (by decide) ?_ ?_
    · show (List.map Prod.fst (_ ++ _ ++ _ ++ _ ++ _ ++ _ ++ _)).Sublist
        (["title", "content", "created_at"] ++ ["deadline"] ++ ["effective"] ++ ["duration"]
          ++ ["feerate"] ++ ["moderator"]
          ++ ["network", "paths", "payments", "programs", "schedule", "value", "version"])
      simp only [List.map_append]
      repeat' apply List.Sublist.append
      all_goals first | exact map_fst_given_sublist _ _ | exact List.Sublist.refl _
    -- each field is looked up among the members, the ones left out included
    · rw [Row.optional_of_lookup (o := p.deadline) ?_ (hnumber _),
        Row.optional_of_lookup (o := p.effective) ?_ (hnumber _),
        Row.optional_of_lookup (o := p.feerate) ?_ (hnumber _),
        Row.optional_of_lookup (o := p.moderator) ?_ hkey]
      all_goals simp [Row.required, Row.withDefault, List.lookup_append, List.lookup_cons,
        lookup_given, Restored.reads, hpaths, hpayments, hprograms, hschedule]

end Proposal

/-! ## Written by being read -/

theorem Pattern.written_of_ofJson? {j : Json} {p : Pattern} (h : ofJson? j = some p) :
    p.Written := by
  cases j with
  | str s => exact ⟨s, toOption_eq_some_iff.1 h⟩
  | _ => cases h

theorem Row.exists_of_required {α : Type} [JsonForm α] {row : Row} {name : String} {a : α}
    (h : row.required name = some a) : ∃ j, JsonForm.ofJson? j = some a := by
  obtain ⟨j, -, hj⟩ := Option.bind_eq_some_iff.1 h
  exact ⟨j, hj⟩

theorem ProgramTerms.written_of_ofJson? {j : Json} {p : ProgramTerms} (h : ofJson? j = some p) :
    p.Written := by
  obtain ⟨row, -, h⟩ := Option.bind_eq_some_iff.1 h
  obtain ⟨method, -, h⟩ := Option.bind_eq_some_iff.1 h
  obtain ⟨actions, hactions, h⟩ := Option.bind_eq_some_iff.1 h
  obtain ⟨paths, hpaths, h⟩ := Option.bind_eq_some_iff.1 h
  obtain ⟨threshold, -, h⟩ := Option.bind_eq_some_iff.1 h
  obtain ⟨members, -, h⟩ := Option.bind_eq_some_iff.1 h
  cases h
  obtain ⟨a, ha⟩ := Row.exists_of_required hactions
  obtain ⟨b, hb⟩ := Row.exists_of_required hpaths
  exact ⟨Pattern.written_of_ofJson? ha, Pattern.written_of_ofJson? hb⟩

theorem ScheduleEntry.written_of_ofJson? {j : Json} {e : ScheduleEntry} (h : ofJson? j = some e) :
    e.Written := by
  obtain ⟨row, -, h⟩ := Option.bind_eq_some_iff.1 h
  obtain ⟨stamp, -, h⟩ := Option.bind_eq_some_iff.1 h
  obtain ⟨action, -, h⟩ := Option.bind_eq_some_iff.1 h
  obtain ⟨path, hpath, h⟩ := Option.bind_eq_some_iff.1 h
  cases h
  obtain ⟨a, ha⟩ := Row.exists_of_required hpath
  exact Pattern.written_of_ofJson? ha

theorem exists_of_mem_ofJson? {α : Type} [JsonForm α] {j : Json} {l : List α}
    (h : ofJson? j = some l) : ∀ a ∈ l, ∃ i, JsonForm.ofJson? i = some a := by
  cases j with
  | arr items =>
    replace h : items.mapM JsonForm.ofJson? = some l := h
    induction items generalizing l with
    | nil =>
      cases h
      simp
    | cons i r ih =>
      rw [List.mapM_cons] at h
      obtain ⟨a, ha, h⟩ := Option.bind_eq_some_iff.1 h
      obtain ⟨rest, hrest, h⟩ := Option.bind_eq_some_iff.1 h
      cases h
      intro b hb
      rcases List.mem_cons.1 hb with rfl | hb
      · exact ⟨i, ha⟩
      · exact ih hrest b hb
  | _ => cases h

theorem Row.exists_of_withDefault {α : Type} [JsonForm α] {row : Row} {name : String} {a b : α}
    (h : row.withDefault name b = some a) : a = b ∨ ∃ j, JsonForm.ofJson? j = some a := by
  unfold Row.withDefault at h
  split at h
  · exact .inl (Option.some.inj h).symm
  · next j _ => exact .inr ⟨j, h⟩

/-- The items of a list that was read are read, each from some value. -/
theorem Row.exists_of_mem_withDefault {α : Type} [JsonForm α] {row : Row} {name : String}
    {l : List α} (h : row.withDefault name [] = some l) :
    ∀ a ∈ l, ∃ j, JsonForm.ofJson? j = some a := by
  rcases Row.exists_of_withDefault h with rfl | ⟨j, hj⟩
  · simp
  · exact exists_of_mem_ofJson? hj

/-- Every proposal that was read has written patterns. -/
theorem Proposal.written_of_ofJson? {j : Json} {p : Proposal} (h : ofJson? j = some p) :
    p.Written := by
  obtain ⟨row, -, h⟩ := Option.bind_eq_some_iff.1 h
  iterate 11 obtain ⟨_, -, h⟩ := Option.bind_eq_some_iff.1 h
  obtain ⟨programs, hprograms, h⟩ := Option.bind_eq_some_iff.1 h
  obtain ⟨schedule, hschedule, h⟩ := Option.bind_eq_some_iff.1 h
  iterate 2 obtain ⟨_, -, h⟩ := Option.bind_eq_some_iff.1 h
  cases h
  constructor
  · intro t ht
    obtain ⟨i, hi⟩ := Row.exists_of_mem_withDefault hprograms t ht
    exact ProgramTerms.written_of_ofJson? hi
  · intro e he
    obtain ⟨i, hi⟩ := Row.exists_of_mem_withDefault hschedule e he
    exact ScheduleEntry.written_of_ofJson? hi

end JointEscrow
