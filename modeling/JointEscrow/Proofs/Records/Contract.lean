import JointEscrow.Contract.Lifecycle
import JointEscrow.Proofs.Records.Machine

/-!
# Records of a contract read back

Outputs, deposits, contracts, requests for their publication and the events that their changes give
are read back from their forms. An event is written with its kind first and read by its kind, so
each kind has a reader of its own (`splitKind?_obj`).
-/

namespace JointEscrow

/-! ## Outputs and deposits -/

/-- Bytes written as digits are read back. -/
theorem bytesOfJson?_encode (bytes : List UInt8) :
    bytesOfJson? (.str (Hex.encode bytes)) = some bytes := by
  show (Hex.decode (Hex.encode bytes)).toOption = some bytes
  rw [Hex.decode_encode]
  rfl

@[simp] theorem restored_txOutput (o : TxOutput) : Restored o := by
  constructor
  · exact .obj (by simp [Restored.plain, Json.Plain.str])
  · exact Row.read_obj (by simp) (List.Sublist.refl _)
      (by simp [Row.required, List.lookup_cons, Restored.reads, bytesOfJson?_encode])

@[simp] theorem restored_utxo (u : Utxo) : Restored u := by
  constructor
  · exact .obj (by simp [Restored.plain, Json.Plain.str])
  · exact Row.read_obj (by simp) (List.Sublist.refl _)
      (by simp [Row.required, List.lookup_cons, Restored.reads, bytesOfJson?_encode])

@[simp] theorem restored_deposit (d : Deposit) : Restored d := by
  constructor
  · exact .obj (by simp [Restored.plain])
  · exact Row.read_obj (by simp) (List.Sublist.refl _)
      (by simp [Row.required, List.lookup_cons, Restored.reads])

@[simp] theorem restored_fundTotals (t : FundTotals) : Restored t := by
  constructor
  · exact .obj (by simp [Restored.plain])
  · exact Row.read_obj (by simp) (List.Sublist.refl _)
      (by simp [Row.required, List.lookup_cons, Restored.reads])

@[simp] theorem restored_spendTemplate (t : SpendTemplate) : Restored t := by
  constructor
  · exact .arr (by simp [Restored.plain])
  · show (do return (⟨← ofJson? (toJson t.label), ← ofJson? (toJson t.txhex)⟩ : SpendTemplate))
      = some t
    simp [Restored.reads]

/-! ## Contracts -/

@[simp] theorem restored_status (t : Status) : Restored t := by
  refine ⟨.str t.name, ?_⟩
  cases t <;> rfl

@[simp] theorem restored_machineOrigin (o : MachineOrigin) : Restored o := by
  constructor
  · exact .obj (by simp [Restored.plain])
  · exact Row.read_obj (by simp) (List.Sublist.refl _)
      (by simp [Row.required, List.lookup_cons, Restored.reads])

/-- Every pattern of the requested proposal was written. -/
def PublishRequest.Written (r : PublishRequest) : Prop := r.proposal.Written

theorem PublishRequest.Written.restored {r : PublishRequest} (h : r.Written) : Restored r := by
  have hproposal : Restored r.proposal := Proposal.Written.restored h
  have hendorsements : Restored r.endorsements := restored_list fun e _ => restored_endorsement e
  constructor
  · exact .obj (by simp [Restored.plain, hproposal, hendorsements])
  · exact Row.read_obj (by simp) (List.Sublist.refl _)
      (by simp [Row.required, Row.withDefault, List.lookup_cons, Restored.reads, hproposal,
        hendorsements])

namespace Contract

/-- Every pattern of the contract's terms was written. -/
def Written (c : Contract) : Prop := c.terms.Written

theorem Written.restored {c : Contract} (h : c.Written) : Restored c := by
  have hterms : Restored c.terms := Proposal.Written.restored h
  have hfees : Restored c.fees := restored_list fun p _ => restored_payment p
  have houtputs : Restored c.outputs := restored_list fun t _ => restored_spendTemplate t
  have hsigs : Restored c.sigs := restored_list fun e _ => restored_proofEntry (restored_status _)
  constructor
  · exact .obj (by simp [Restored.plain, hterms, hfees, houtputs, hsigs])
  · refine Row.read_obj (by decide) (List.Sublist.refl _) ?_
    rw [Row.optional_of_form (o := c.activeAt) (by simp [List.lookup_cons]) (by simp),
      Row.optional_of_form (o := c.canceledAt) (by simp [List.lookup_cons]) (by simp),
      Row.optional_of_form (o := c.closedAt) (by simp [List.lookup_cons]) (by simp),
      Row.optional_of_form (o := c.engineHead) (by simp [List.lookup_cons]) (by simp),
      Row.optional_of_form (o := c.engineVmid) (by simp [List.lookup_cons]) (by simp),
      Row.optional_of_form (o := c.engineVout) (by simp [List.lookup_cons]) (by simp),
      Row.optional_of_form (o := c.expiresAt) (by simp [List.lookup_cons]) (by simp),
      Row.optional_of_form (o := c.settledAt) (by simp [List.lookup_cons]) (by simp),
      Row.optional_of_form (o := c.spentAt) (by simp [List.lookup_cons]) (by simp),
      Row.optional_of_form (o := c.spentTxid) (by simp [List.lookup_cons]) (by simp)]
    simp [Row.required, List.lookup_cons, Restored.reads, hterms, hfees, houtputs, hsigs]

end Contract

/-! ## Events -/

namespace Json

theorem readableItems_iff {items : List Json} :
    readableItems items = true ↔ ∀ x ∈ items, x.readable = true := by
  induction items with
  | nil => simp [readableItems]
  | cons x r ih => simp [readableItems, ih]

theorem readableMembers_iff {members : List (String × Json)} :
    readableMembers members = true ↔ ∀ m ∈ members, m.2.readable = true := by
  induction members with
  | nil => simp [readableMembers]
  | cons m r ih => simp [readableMembers, ih]

theorem Plain.readable {j : Json} (h : Plain j) : j.readable = true := by
  induction h with
  | null => rfl
  | bool b => rfl
  | num n => rfl
  | str s => rfl
  | arr h ih => exact readableItems_iff.2 ih
  | obj h ih => exact readableMembers_iff.2 ih

/-- An object of values without parts is one level deep. -/
theorem depth_obj {members : List (String × Json)} (h : ∀ m ∈ members, m.2.depth = 0) :
    (Json.obj members).depth = 1 := by
  have hmembers : depthMembers members = 0 := by
    induction members with
    | nil => rfl
    | cons m r ih =>
      have hrest := ih fun e he => h e (List.mem_cons_of_mem m he)
      rw [depthMembers, h m List.mem_cons_self, hrest]
      rfl
  rw [depth, hmembers]

end Json

namespace Event

theorem splitKind?_obj {kind : Json} {fields : List (String × Json)}
    (h : ∀ m ∈ fields, m.1 ≠ "type") :
    splitKind? (.obj (("type", kind) :: fields)) = some (kind, .obj fields) := by
  have hkind : (("type", kind) :: fields).filter (fun m => m.1 = "type") = [("type", kind)] := by
    rw [List.filter_cons_of_pos (by simp), List.filter_eq_nil_iff.2]
    intro m hm
    simpa using h m hm
  have hrest : (("type", kind) :: fields).filter (fun m => m.1 ≠ "type") = fields := by
    rw [List.filter_cons_of_neg (by simp), List.filter_eq_self]
    intro m hm
    simpa using h m hm
  unfold splitKind?
  simp only [hkind, hrest]

/-- An event is read back if its fields are, by the reader of its kind. -/
theorem restored_of_fields {e : Event} {kind : String} {fields : List (String × Json)}
    (hform : toJson e = .obj (("type", toJson kind) :: fields))
    (hnames : ∀ m ∈ fields, m.1 ≠ "type") (hplain : ∀ m ∈ fields, m.2.Plain)
    (hflat : ∀ m ∈ fields, m.2.depth = 0) (hread : ofFields? kind (.obj fields) = some e) :
    Restored e := by
  have hmembers : (toJson e).Plain := by
    rw [hform]
    refine .obj fun m hm => ?_
    rcases List.mem_cons.1 hm with rfl | hm
    · exact (restored_string kind).plain
    · exact hplain m hm
  have hdepth : (toJson e).depth = 1 := by
    rw [hform]
    refine Json.depth_obj fun m hm => ?_
    rcases List.mem_cons.1 hm with rfl | hm
    · rfl
    · exact hflat m hm
  refine ⟨hmembers, ?_⟩
  show (if (toJson e).readable ∧ (toJson e).depth ≤ Json.depthLimit then _ else none) = some e
  rw [if_pos ⟨hmembers.readable, by rw [hdepth]; decide⟩, hform, splitKind?_obj hnames]
  exact hread

end Event

@[simp] theorem restored_event (e : Event) : Restored e := by
  cases e with
  | closed cid head output at_ =>
    refine Event.restored_of_fields rfl (by simp) (by simp [Restored.plain]) ?_ ?_
    · cases output <;> simp [toJson, Json.depth]
    · unfold Event.ofFields?
      refine Row.read_obj (by simp) (List.Sublist.refl _) ?_
      rw [Row.optional_of_form (o := output) (by simp [List.lookup_cons]) (by simp)]
      simp [Row.required, List.lookup_cons, Restored.reads]
  | _ =>
    -- no other event has a field that may be missing
    refine Event.restored_of_fields rfl (by simp) (by simp [Restored.plain]) ?_ ?_
    · simp [toJson, Json.depth]
    · unfold Event.ofFields?
      exact Row.read_obj (by simp) (List.Sublist.refl _)
        (by simp [Row.required, List.lookup_cons, Restored.reads])

/-! ## Written by being read -/

theorem PublishRequest.written_of_ofJson? {j : Json} {r : PublishRequest} (h : ofJson? j = some r) :
    r.Written := by
  obtain ⟨row, -, h⟩ := Option.bind_eq_some_iff.1 h
  obtain ⟨proposal, hproposal, h⟩ := Option.bind_eq_some_iff.1 h
  obtain ⟨_, -, h⟩ := Option.bind_eq_some_iff.1 h
  cases h
  obtain ⟨i, hi⟩ := Row.exists_of_required hproposal
  exact Proposal.written_of_ofJson? hi

end JointEscrow
