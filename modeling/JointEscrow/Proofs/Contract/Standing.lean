import JointEscrow.Proofs.Contract.Advance
import JointEscrow.Proofs.Contract.AuditStages

/-!
# Flags and proofs of a record

A record tells twice which statuses it has reached: by its flags and by its log of proofs. Under the
invariant `Standing` both are the trail of its present status, and each proof is the one that the
key makes of the note that the record still gives for that status. A new status keeps the invariant
because its fields are written by it alone (`Standing.advance`). A record in good standing passes
the signature stage of the audit.
-/

namespace JointEscrow

namespace Contract

variable {c n next : Contract} {ch : Change} {key : KeyPair} {time : UInt64}

theorem mem_reachedStatuses_iff {s : Status} : s ∈ c.reachedStatuses ↔ c.flag s = true := by
  unfold reachedStatuses
  cases s <;> simp [flag]

/-- The flags and the log of proofs follow the present status, and each proof is the key's. -/
structure Standing (key : KeyPair) (c : Contract) : Prop where
  flags : ∀ s, c.flag s = decide (s ∈ c.status.trail)
  statuses : c.sigs.map (·.status) = c.status.trail
  proofs : ∀ e ∈ c.sigs, ∃ note, c.statusNote e.status = .ok note ∧
    e = notarize e.status note key

/-- The log of a record in good standing is made of its notes. -/
theorem Standing.sigs_eq_map (h : Standing key c) :
    c.sigs.map some =
      c.status.trail.map fun s => (c.statusNote s).toOption.map (notarize s · key) := by
  rw [← h.statuses, List.map_map]
  refine List.map_congr_left fun e he => ?_
  obtain ⟨note, hnote, heq⟩ := h.proofs e he
  show some e = (c.statusNote e.status).toOption.map (notarize e.status · key)
  rw [hnote]
  exact congrArg some heq

/-- Records in good standing that give the same notes have the same proofs. -/
theorem Standing.sigs_eq (hc : Standing key c) (hn : Standing key n) (hstatus : c.status = n.status)
    (hnotes : ∀ s, c.statusNote s = n.statusNote s) : c.sigs = n.sigs := by
  apply List.map_injective_iff.2 (Option.some_injective _)
  rw [hc.sigs_eq_map, hn.sigs_eq_map, hstatus]
  simp only [hnotes]

theorem pubkey_of_statusNote {s : Status} {note : Note} (h : c.statusNote s = .ok note) :
    note.pubkey = c.serverPk := by
  obtain ⟨⟨content, t⟩, -, hnote⟩ := bind_eq_ok_iff.1 h
  rw [← pure_eq_ok_iff.1 hnote]
  rfl

/-! ## The operations -/

/-- A record stays in good standing when it takes on a status that follows its own and adds the
proof of it, since the notes about the earlier statuses are left as they are. -/
theorem Standing.advance (h : Standing key c) (hadvance : Advance c n)
    (hrecord : n.recordStatus key = .ok next) : Standing key next := by
  obtain ⟨-, note, hnote, rfl⟩ := (hadvance.recordStatus_eq_ok_iff h.statuses).1 hrecord
  constructor
  · intro s
    rw [flag_signed]
    exact hadvance.flags h.flags s
  · exact hadvance.statuses h.statuses note
  · intro e he
    rw [statusNote_signed]
    rcases List.mem_append.1 he with hold | hnew
    · obtain ⟨note', hnote', heq⟩ := h.proofs e hold
      have hearlier : e.status ∈ c.status.trail := h.statuses ▸ List.mem_map_of_mem hold
      have hother : e.status ≠ n.status := fun heq => hadvance.fresh (heq ▸ hearlier)
      exact ⟨note', (hadvance.statusNote hother).trans hnote', heq⟩
    · rw [List.mem_singleton.1 hnew]
      exact ⟨note, hnote, rfl⟩

theorem Standing.withTotals (h : Standing key c) (t : FundTotals) :
    Standing key (c.withTotals t) := by
  refine ⟨?_, h.statuses, ?_⟩
  · intro s
    rw [← show c.status = (c.withTotals t).status from rfl, ← h.flags]
    cases s <;> rfl
  · intro e he
    obtain ⟨note, hnote, heq⟩ := h.proofs e he
    refine ⟨note, ?_, heq⟩
    rw [← hnote]
    cases e.status <;> rfl

theorem Standing.step (h : Standing key c) (hstep : Step key c n) : Standing key n := by
  rcases step_cases hstep with ⟨deposits, rfl⟩ | ⟨next, hadvance, hrecord⟩
  · exact h.withTotals _
  · exact h.advance hadvance hrecord

theorem standing_of_create {options : PublishOptions} {policy : ServerPolicy} {r : PublishRequest}
    (h : create options policy r key time = .ok ch) : Standing key ch.contract := by
  obtain ⟨-, outputs, cid, fees, subtotal, next, -, -, -, -, -, hrecord, rfl⟩ :=
    create_eq_ok_iff.1 h
  obtain ⟨-, note, sigs, hnote, hupdate, rfl⟩ := recordStatus_eq_ok_iff.1 hrecord
  cases hupdate
  refine ⟨?_, rfl, ?_⟩
  · intro s
    cases s <;> rfl
  · intro e he
    rw [List.mem_singleton.1 he, statusNote_signed]
    exact ⟨note, hnote, rfl⟩

/-! ## The signature stage -/

/-- A record in good standing has the proofs that the audit asks for, and they stand exactly when
the key's signatures verify over the notes of the statuses that the record has reached. -/
theorem Standing.verifySignatures_iff (h : Standing key c)
    (hauthority : c.serverPk = key.publicKey) :
    c.verifySignatures key.publicKey = .ok () ↔
      ∀ s ∈ c.reachedStatuses, ∀ note, c.statusNote s = .ok note →
        key.publicKey.verifies note.id (key.sign note.id) = true := by
  -- flags and proofs follow one trail, so what is flagged has been proved
  have hreached : ∀ s, s ∈ c.reachedStatuses ↔ ∃ e ∈ c.sigs, e.status = s := by
    intro s
    rw [mem_reachedStatuses_iff, h.flags, decide_eq_true_eq, ← h.statuses, List.mem_map]
  have hproof : ∀ e ∈ c.sigs, ∃ note, c.statusNote e.status = .ok note ∧
      (c.verifyStatusProof key.publicKey e = .ok () ↔
        key.publicKey.verifies note.id (key.sign note.id) = true) := by
    intro e he
    obtain ⟨note, hnote, heq⟩ := h.proofs e he
    have hpubkey : note.pubkey = key.publicKey := (pubkey_of_statusNote hnote).trans hauthority
    refine ⟨note, hnote, ?_⟩
    rw [← verifyProof_notarize_iff e.status hpubkey, ← heq, verifyStatusProof_eq_ok_iff, hnote]
    simp only [Except.ok.injEq, exists_eq_left']
  rw [verifySignatures_eq_ok_iff]
  constructor
  · rintro ⟨-, hall⟩ s hs note hnote
    obtain ⟨e, he, rfl⟩ := (hreached s).1 hs
    obtain ⟨note', hnote', hverified⟩ := hproof e he
    cases hnote.symm.trans hnote'
    exact hverified.1 (hall e he)
  · intro hall
    constructor
    · intro s hs
      exact (hreached s).1 hs
    · intro e he
      obtain ⟨note, hnote, hverified⟩ := hproof e he
      exact hverified.2 (hall e.status ((hreached _).2 ⟨e, he, rfl⟩) note hnote)

end Contract

end JointEscrow
