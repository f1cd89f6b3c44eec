import JointEscrow.Proofs.Machine.LogCommitment
import JointEscrow.Proofs.Machine.Provenance
import JointEscrow.Proofs.Statements

/-!
# Receipts of a run

Much of a machine changes without a link: its stamp, a refusal, the tasks that wait. Its head does
not, for states of one run at the same step have the same log (`head_eq_of_step_eq`). Receipts of an
honest run therefore never conflict. A receipt passes its check with the states that have what it
shows, and with no others (`verify_create_iff`).
-/

namespace JointEscrow

namespace Machine

variable {c : MachineConfig} {m₀ m n : Machine} {genesis : Digest} {inputs a b : List Input}

/-! ## The head at a step -/

theorem head_eq_of_commits_eq (hm : Chained genesis m) (hn : Chained genesis n)
    (h : m.commits = n.commits) : m.head = n.head := by
  have hlinks := hm.links
  rw [h, hn.links] at hlinks
  exact (Except.ok.inj hlinks).symm

/-- Along a run the log only grows. -/
theorem commits_grow (hab : a <+: b) (hm : m₀.replay a = some m)
    (hn : m₀.replay b = some n) : m.commits <+: n.commits := by
  obtain ⟨rest, rfl⟩ := hab
  rw [replay_append, hm, Option.bind_some] at hn
  exact commits_prefix_of_replay hn

/-- A later state at the same step has the same log, for every link is a step. -/
theorem head_eq_of_later (hinit : init c = .ok m₀) (hab : a <+: b) (hm : m₀.replay a = some m)
    (hn : m₀.replay b = some n) (hstep : m.step = n.step) : m.head = n.head := by
  have hchainedm := chained_of_replay hinit hm
  have hchainedn := chained_of_replay hinit hn
  have hlength : m.commits.length = n.commits.length := by
    rw [← hchainedm.count, ← hchainedn.count, hstep]
  exact head_eq_of_commits_eq hchainedm hchainedn
    ((commits_grow hab hm hn).eq_of_length hlength)

/-- The head is a function of the step over the states of a run. -/
theorem head_eq_of_step_eq (hinit : init c = .ok m₀) (ha : a <+: inputs) (hb : b <+: inputs)
    (hm : m₀.replay a = some m) (hn : m₀.replay b = some n) (hstep : m.step = n.step) :
    m.head = n.head := by
  rcases List.prefix_or_prefix_of_prefix ha hb with hab | hba
  · exact head_eq_of_later hinit hab hm hn hstep
  · exact (head_eq_of_later hinit hba hn hm hstep.symm).symm

end Machine

namespace Receipt

variable {m n : Machine} {key : KeyPair}

/-! ## The state of a receipt -/

/-- Two receipts show that the server told two histories: different heads for one step. -/
def Conflict (r s : Receipt) : Prop := r.step = s.step ∧ r.head ≠ s.head

theorem verify_some_eq_ok_iff {r : Receipt} {authority : PublicKey} :
    r.verify authority (some m) = .ok () ↔
      r.verify authority none = .ok () ∧ m.checkpoint.digest = r.digest := by
  unfold verify
  by_cases hkey : r.serverPk = authority
  · rw [if_neg (not_not_intro hkey)]
    by_cases hverifies : authority.verifies r.digest r.sig = true
    · by_cases hdigest : m.checkpoint.digest = r.digest <;> simp [hkey, hverifies, hdigest]
    · simp [hkey, hverifies]
  · simp [hkey]

/-- A receipt passes its check with a state if its signature verifies and the state is at the
checkpoint that the receipt was made at. -/
theorem verify_create_iff (hfree : Digest.CollisionFree
      [Digest.preimage m.checkpoint, Digest.preimage n.checkpoint]) :
    (create m key).verify key.publicKey (some n) = .ok () ↔
      key.publicKey.verifies m.checkpoint.digest (key.sign m.checkpoint.digest) = true ∧
        n.checkpoint = m.checkpoint := by
  have hcheckpoint : n.checkpoint.digest = (create m key).digest ↔
      n.checkpoint = m.checkpoint := by
    constructor
    · exact eq_of_ofValue_eq hfree (restored_checkpoint _) (restored_checkpoint _)
        (List.mem_cons_of_mem _ List.mem_cons_self) List.mem_cons_self
    · exact congrArg Checkpoint.digest
  rw [verify_some_eq_ok_iff, verify_eq_ok_iff, hcheckpoint]
  constructor
  · rintro ⟨⟨-, hverifies⟩, hsame⟩
    exact ⟨hverifies, hsame⟩
  · rintro ⟨hverifies, hsame⟩
    exact ⟨⟨rfl, hverifies⟩, hsame⟩

/-! ## Receipts and honest runs -/

/-- Over the states of a run the head is a function of the step, so that their receipts never
conflict, whoever signs them. With a key whose signature verifies, a receipt is accepted for exactly
the states that have the identifier, the head, the step and the stamp of its own. -/
theorem receipts_tell_states :
    (∀ {c : MachineConfig} {m₀ m n : Machine} {inputs a b : List Input},
      Machine.init c = .ok m₀ → a <+: inputs → b <+: inputs → m₀.replay a = some m →
        m₀.replay b = some n → (m.step = n.step → m.head = n.head) ∧
          ∀ key key', ¬ (create m key).Conflict (create n key')) ∧
    ∀ (m n : Machine) (key : KeyPair),
      key.publicKey.verifies m.checkpoint.digest (key.sign m.checkpoint.digest) = true →
      Digest.CollisionFree [Digest.preimage m.checkpoint, Digest.preimage n.checkpoint] →
        ((create m key).verify key.publicKey (some n) = .ok () ↔
          n.vmid = m.vmid ∧ n.head = m.head ∧ n.step = m.step ∧ n.updatedAt = m.updatedAt) := by
  constructor
  · intro c m₀ m n inputs a b hinit ha hb hm hn
    have hheads : m.step = n.step → m.head = n.head :=
      Machine.head_eq_of_step_eq hinit ha hb hm hn
    refine ⟨hheads, ?_⟩
    rintro key key' ⟨hstep, hhead⟩
    exact hhead (hheads hstep)
  · intro m n key hverifies hfree
    have hfields : n.checkpoint = m.checkpoint ↔
        n.vmid = m.vmid ∧ n.head = m.head ∧ n.step = m.step ∧ n.updatedAt = m.updatedAt := by
      unfold Machine.checkpoint
      rw [Checkpoint.mk.injEq]
    rw [verify_create_iff hfree, hfields]
    constructor
    · rintro ⟨-, hsame⟩
      exact hsame
    · intro hsame
      exact ⟨hverifies, hsame⟩

/-- The key of a host. -/
def hostKey : KeyPair := ⟨Vector.replicate 32 42⟩

/-- The deposit's machine once it has refused the release, which is for a later step. -/
def refusedStart : Machine :=
  { Machine.lockedStart with error := some (Refusal.staleStep 0 1).message }

theorem digest_of_genesis (stamp : UInt64) :
    (Checkpoint.mk .zero Machine.lockedDeposit.genesis 0 stamp).digest =
      .ofBytes ((Json.render (.obj [("vmid", .str Digest.zero.hex),
        ("head", .str (Digest.ofNat
          0x69af8dec19171de85d178bdb65b6b51a0df1a82d63812eb1f718038c4d6d251a).hex),
        ("step", .num 0), ("updated_at", .num stamp)])).flatMap String.utf8EncodeChar) := by
  rw [← Json.utf8_compact, ← Machine.genesis_lockedDeposit]
  rfl

theorem digest_lockedStart : Machine.lockedStart.checkpoint.digest =
    .ofNat 0x21d8da388d583002f1eb565f1b58b8981a097f9b7e7c553c74607e767183b9a6 := by
  refine (digest_of_genesis 500).trans ?_
  simp only [Json.render, Json.renderMembers, Digest.hex, Hex.encode, Json.renderText_ofList]
  decide +kernel

theorem digest_expired : (Machine.lockedStart.expire 1500).checkpoint.digest =
    .ofNat 0x02baac228742c6fa5b6c4b508e78b86550f087f148ee2bd71adc840456ace8eb := by
  refine (digest_of_genesis 1500).trans ?_
  simp only [Json.render, Json.renderMembers, Digest.hex, Hex.encode, Json.renderText_ofList]
  decide +kernel

theorem verifies_hostKey : hostKey.publicKey.verifies Machine.lockedStart.checkpoint.digest
    (hostKey.sign Machine.lockedStart.checkpoint.digest) = true := by
  rw [digest_lockedStart]
  decide +kernel

/-- The expiry of the locked deposit moves its stamp without a step, so that the receipts before and
after it show one head. A receipt of the start passes its check with the machine that has refused a
witness since, but not with one that has expired since. -/
theorem lockedDeposit_receipts :
    (∃ m n, Machine.lockedStart.replay [.clock 560] = some m ∧
      Machine.lockedStart.replay [.clock 560, .clock 1500] = some n ∧ m.step = n.step ∧
        m.updatedAt ≠ n.updatedAt ∧ m.head = n.head ∧
          ∀ key key', ¬ (create m key).Conflict (create n key')) ∧
    (Machine.lockedStart.replay [.witness Machine.releaseWitness] = some refusedStart ∧
      (create Machine.lockedStart hostKey).verify hostKey.publicKey (some refusedStart) = .ok ()) ∧
    (create Machine.lockedStart hostKey).verify hostKey.publicKey
      (some (Machine.lockedStart.expire 1500)) ≠ .ok () := by
  obtain ⟨hheads, hstates⟩ := receipts_tell_states
  refine ⟨?_, ⟨rfl, ?_⟩, ?_⟩
  · have hrun : ((Machine.lockedStart.replay [.clock 560]).any fun m => (m.run 1500).any fun n =>
        decide (m.step = n.step) && decide (m.updatedAt ≠ n.updatedAt)) = true := by
      decide +kernel
    obtain ⟨m, hm, hrest⟩ := Option.any_eq_true _ _ |>.1 hrun
    obtain ⟨n, hn, hends⟩ := Option.any_eq_true _ _ |>.1 hrest
    simp only [Bool.and_eq_true, decide_eq_true_eq] at hends
    obtain ⟨hstep, hstamp⟩ := hends
    have hboth : Machine.lockedStart.replay ([.clock 560] ++ [.clock 1500]) = some n :=
      Machine.replay_snoc_eq_some_iff.2 ⟨m, hm, hn⟩
    obtain ⟨hhead, hconflict⟩ := hheads Machine.init_lockedDeposit (List.prefix_append _ _)
      List.prefix_rfl hm hboth
    exact ⟨m, n, hm, hboth, hstep, hstamp, hhead hstep, hconflict⟩
  · -- the refusal is no part of the checkpoint, so both have one preimage
    have hfree : Digest.CollisionFree [Digest.preimage Machine.lockedStart.checkpoint,
        Digest.preimage refusedStart.checkpoint] :=
      Digest.collisionFree_pair_iff.2 fun _ => rfl
    exact (hstates _ refusedStart hostKey verifies_hostKey hfree).2 ⟨rfl, rfl, rfl, rfl⟩
  · have hdigests : Machine.lockedStart.checkpoint.digest ≠
        (Machine.lockedStart.expire 1500).checkpoint.digest := by
      rw [digest_lockedStart, digest_expired]
      decide +kernel
    have hfree : Digest.CollisionFree [Digest.preimage Machine.lockedStart.checkpoint,
        Digest.preimage (Machine.lockedStart.expire 1500).checkpoint] :=
      Digest.collisionFree_pair_iff.2 fun hsame => absurd hsame hdigests
    intro haccepted
    obtain ⟨-, -, -, hstamp⟩ := (hstates _ _ hostKey verifies_hostKey hfree).1 haccepted
    exact absurd hstamp (by decide +kernel)

end Receipt

end JointEscrow
