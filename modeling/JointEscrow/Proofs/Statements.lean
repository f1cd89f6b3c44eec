import JointEscrow.Proofs.Machine.Authorization
import JointEscrow.Proofs.Records.Contract

/-!
# Statements

Eight kinds of records are identified by digests of their text, and four of them are signed by way
of these digests: proposals, witnesses, receipts and notes. Nothing in a text names its kind, and
several kinds start with the same fields, yet the first two members of the text always tell the kind
(`kindOf?_form`), and the kind tells how to read the rest (`Written.restored`). So no text stands
for two statements, of one kind or of two, and a digest or a signature is good for one statement
alone unless digests collide (`statements_separate`).
-/

namespace JointEscrow

namespace Digest

/-- Different byte strings with the same digest. -/
def Collide (a b : List UInt8) : Prop := a ≠ b ∧ ofBytes a = ofBytes b

end Digest

/-- The signature is not one of two different digests, which is what a signature scheme is relied on
for. -/
def PublicKey.SignsOnce (key : PublicKey) (sig : Signature) (d e : Digest) : Prop :=
  key.verifies d sig = true → key.verifies e sig = true → d = e

theorem Receipt.verify_eq_ok_iff {r : Receipt} {authority : PublicKey} :
    r.verify authority none = .ok () ↔
      r.serverPk = authority ∧ authority.verifies r.digest r.sig = true := by
  unfold verify
  by_cases hkey : r.serverPk = authority
  · rw [if_neg (not_not_intro hkey)]
    by_cases hverifies : authority.verifies r.digest r.sig = true <;> simp [hkey, hverifies]
  · rw [if_pos hkey]
    simp [hkey]

/-- What a digest can be about. -/
inductive Statement where
  | proposal (p : Proposal)
  | program (t : ProgramTerms)
  | config (c : MachineConfig)
  | request (r : Witness.Request)
  | firing (f : Firing)
  | origin (o : MachineOrigin)
  | checkpoint (c : Checkpoint)
  | note (n : Note)

namespace Statement

open Machine

variable {x y : Statement}

/-- The value whose text is hashed. -/
def form : Statement → Json
  | proposal p => toJson p
  | program t => toJson t
  | config c => toJson c
  | request r => toJson r
  | firing f => toJson f
  | origin o => toJson o
  | checkpoint c => toJson c
  | note n => toJson (Note.Serial.mk n)

/-- The identifier that is used for a statement of each kind. -/
def id : Statement → Digest
  | proposal p => p.id
  | program t => (Program.ofTerms t).progId
  | config c => c.genesis
  | request r => (Witness.mk r.vmid r.method r.action r.path r.stamp r.step []).id
  | firing f => f.id
  | origin o => o.id
  | checkpoint c => c.digest
  | note n => n.id

/-- Whether the check that is made of a signature over a statement of this kind passes. The other
kinds are not signed. -/
def Accepts (key : PublicKey) (sig : Signature) : Statement → Prop
  | proposal p => p.endorsedBy ⟨key, sig⟩ = true
  | request r => (Witness.mk r.vmid r.method r.action r.path r.stamp r.step
      [⟨key, sig⟩]).checkSignatures = .ok ()
  | checkpoint c =>
    (Receipt.mk c.vmid c.head c.step c.updatedAt key sig).verify key none = .ok ()
  | note n => verifyProof n (proofText n.id sig) key = .ok ()
  | _ => False

/-- Every pattern in the statement was written. -/
def Written : Statement → Prop
  | proposal p => p.Written
  | program t => t.Written
  | config c => c.Written
  | _ => True

/-! ## Kinds -/

inductive Kind where
  | proposal
  | program
  | config
  | request
  | firing
  | origin
  | checkpoint
  | note
  deriving DecidableEq, Repr

def kind : Statement → Kind
  | proposal _ => .proposal
  | program _ => .program
  | config _ => .config
  | request _ => .request
  | firing _ => .firing
  | origin _ => .origin
  | checkpoint _ => .checkpoint
  | note _ => .note

/-- The kind of statement that a value starts like. A list is a note. The other kinds differ in
their first member or in their second, except that a request and a firing have different words for
their method. -/
def kindOf? : Json → Option Kind
  | .arr _ => some .note
  | .obj ((first, _) :: (second, value) :: _) =>
    if first = "title" then some .proposal
    else if first = "method" then some .program
    else if first = "cid" then some .origin
    else if second = "active_at" then some .config
    else if second = "head" then some .checkpoint
    else if (ofJson? value : Option String) = some Firing.method then some .firing
    else some .request
  | _ => none

/-- The statement of a given kind that a value is the form of. -/
def ofKind? (j : Json) : Kind → Option Statement
  | .proposal => (ofJson? j).map proposal
  | .program => (ofJson? j).map program
  | .config => (ofJson? j).map config
  | .request => (ofJson? j).map request
  | .firing => (ofJson? j).map firing
  | .origin => (ofJson? j).map origin
  | .checkpoint => (ofJson? j).map checkpoint
  | .note => (ofJson? j).map fun s : Note.Serial => note s.note

instance : JsonForm Statement where
  toJson := form
  ofJson? j := (kindOf? j).bind (ofKind? j)

theorem kindOf?_form (x : Statement) : kindOf? x.form = some x.kind := by
  cases x with
  | request r =>
    obtain ⟨vmid, method, action, path, stamp, step⟩ := r
    cases method
    rfl
  | _ => rfl

/-- A statement is read back if the record in it is, by the reader of its kind. -/
theorem restored_of_record {α : Type} [JsonForm α] {a : α} (make : α → Statement) (ha : Restored a)
    (hform : (make a).form = toJson a)
    (hread : ∀ j, ofKind? j (make a).kind = (ofJson? j).map make) : Restored (make a) := by
  constructor
  · show (make a).form.Plain
    rw [hform]
    exact ha.plain
  · show (kindOf? (make a).form).bind (ofKind? (make a).form) = some (make a)
    rw [kindOf?_form, Option.bind_some, hread, hform, ha.reads, Option.map_some]

theorem Written.restored (hx : x.Written) : Restored x := by
  cases x with
  | proposal p => exact restored_of_record proposal (Proposal.Written.restored hx) rfl fun _ => rfl
  | program t =>
    exact restored_of_record program (ProgramTerms.Written.restored hx) rfl fun _ => rfl
  | config c => exact restored_of_record config (MachineConfig.Written.restored hx) rfl fun _ => rfl
  | request r => exact restored_of_record request (restored_request r) rfl fun _ => rfl
  | firing f => exact restored_of_record firing (restored_firing f) rfl fun _ => rfl
  | origin o => exact restored_of_record origin (restored_machineOrigin o) rfl fun _ => rfl
  | checkpoint c => exact restored_of_record checkpoint (restored_checkpoint c) rfl fun _ => rfl
  | note n =>
    exact restored_of_record (fun s => note s.note) (restored_serial ⟨n⟩) rfl fun _ => rfl

/-! ## Digests and signatures -/

/-- Every identifier is the digest of the statement's text. -/
theorem id_eq (x : Statement) : x.id = .ofBytes (Digest.preimage x) := by
  cases x <;> rfl

/-- Every check of a signature asks whether it is one of the statement's digest. -/
theorem verifies_of_accepts {key : PublicKey} {sig : Signature} (h : x.Accepts key sig) :
    key.verifies x.id sig = true := by
  cases x with
  | proposal p => exact h
  | request r =>
    have hsigned := checkSignatures_eq_ok_iff.1 h ⟨key, sig⟩ List.mem_cons_self
    unfold id Witness.id
    exact hsigned
  | checkpoint c => exact (Receipt.verify_eq_ok_iff.1 h).2
  | note n =>
    obtain ⟨-, s, hparse, hverifies⟩ := verifyProof_eq_ok_iff.1 h
    rw [parseProof_proofText, Except.ok.injEq, Prod.mk.injEq] at hparse
    rwa [hparse.2]
  | _ => exact h.elim

/-- One text stands for one statement, of one kind. So two statements with one identifier are a
collision of digests, and so are two that one signature is accepted for, unless it is a signature of
two different digests. -/
theorem statements_separate (hx : x.Written) (hy : y.Written) :
    (Digest.preimage x = Digest.preimage y → x.kind = y.kind ∧ x = y) ∧
      (x.id = y.id → x ≠ y → Digest.Collide (Digest.preimage x) (Digest.preimage y)) ∧
        ∀ key sig, key.SignsOnce sig x.id y.id → x.Accepts key sig → y.Accepts key sig → x ≠ y →
          Digest.Collide (Digest.preimage x) (Digest.preimage y) := by
  have hinjective : Digest.preimage x = Digest.preimage y → x = y :=
    preimage_injective hx.restored hy.restored
  have hcollide : x.id = y.id → x ≠ y →
      Digest.Collide (Digest.preimage x) (Digest.preimage y) := by
    intro hid hne
    refine ⟨fun hpreimage => hne (hinjective hpreimage), ?_⟩
    rw [← id_eq, ← id_eq, hid]
  refine ⟨?_, hcollide, ?_⟩
  · intro hpreimage
    have hxy := hinjective hpreimage
    exact ⟨congrArg kind hxy, hxy⟩
  · intro key sig honce hacceptsx hacceptsy
    exact hcollide (honce (verifies_of_accepts hacceptsx) (verifies_of_accepts hacceptsy))

/-- What the buyer signs cannot be taken for a scheduled task with the same fields, and neither can
the signature for one of a receipt. -/
theorem buyerWitness_separate :
    Digest.preimage (request buyerWitness.request) ≠ Digest.preimage (firing ⟨buyerWitness.vmid,
        buyerWitness.action, buyerWitness.path, buyerWitness.stamp, buyerWitness.step⟩) ∧
      ∀ e ∈ buyerWitness.endorsements,
        (request buyerWitness.request).Accepts e.pubkey e.signature ∧
          ¬ (checkpoint ⟨.zero, .zero, 0, 510⟩).Accepts e.pubkey e.signature := by
  have hwritten : (request buyerWitness.request).Written := trivial
  constructor
  · intro hpreimage
    have hfiring : (firing ⟨buyerWitness.vmid, buyerWitness.action, buyerWitness.path,
      buyerWitness.stamp, buyerWitness.step⟩).Written := trivial
    have hkind := ((statements_separate hwritten hfiring).1 hpreimage).1
    exact absurd hkind (by decide)
  · have hreceipt : (checkpoint ⟨.zero, .zero, 0, 510⟩).Written := trivial
    intro e he
    have hsigned : e.verifies buyerWitness.id = true := by
      revert e
      decide +kernel
    have hother : e.verifies (checkpoint ⟨.zero, .zero, 0, 510⟩).id = false := by
      revert e
      decide +kernel
    have haccepts : (request buyerWitness.request).Accepts e.pubkey e.signature :=
      checkSignatures_eq_ok_iff.2 (List.forall_mem_singleton.2 hsigned)
    refine ⟨haccepts, ?_⟩
    intro hreplayed
    have honce : e.pubkey.SignsOnce e.signature (request buyerWitness.request).id
        (checkpoint ⟨.zero, .zero, 0, 510⟩).id := by
      intro _ hverifies
      exact absurd (hother.symm.trans hverifies) (by decide)
    obtain ⟨-, hcollide⟩ := (statements_separate hwritten hreceipt).2.2 e.pubkey e.signature honce
      haccepts hreplayed Statement.noConfusion
    rw [← id_eq, ← id_eq] at hcollide
    have hverifies : e.verifies (checkpoint ⟨.zero, .zero, 0, 510⟩).id = true := hcollide ▸ hsigned
    exact absurd (hother.symm.trans hverifies) (by decide)

end Statement

end JointEscrow
