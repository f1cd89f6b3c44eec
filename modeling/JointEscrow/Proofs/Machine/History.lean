import JointEscrow.Proofs.Machine.Agreement
import JointEscrow.Proofs.Machine.LogChain
import Mathlib.Algebra.Group.Nat.Defs

/-!
# What a run leaves in the log

A run has a result as long as the step counter has room for every input and every task
(`exists_replay`). What it then leaves is told by `recorded_of_replay`: a log that verifies, each
link at its place with the head of those in front of it, and the fields of the start as they
were.
-/

namespace JointEscrow.Machine

variable {m m₀ : Machine} {c : MachineConfig} {inputs : List Input}

/-! ## Runs that have a result -/

theorem exists_commit (hroom : m.step.toNat + 1 < 2 ^ 64) (wid : Digest) (stamp : UInt64) :
    ∃ step : UInt64, m.step.toNat + 1 = step.toNat ∧
      m.commit wid stamp = some (m.linked wid stamp step) := by
  have hstep : m.step.toNat + 1 = (UInt64.ofNat (m.step.toNat + 1)).toNat :=
    (UInt64.toNat_ofNat_of_lt' hroom).symm
  exact ⟨_, hstep, commit_eq_some_iff.2 ⟨_, hstep, rfl⟩⟩

theorem exists_eval (hroom : m.step.toNat + 1 < 2 ^ 64) (w : Witness) :
    ∃ n, m.eval w = some n ∧ n.step.toNat ≤ m.step.toNat + 1 := by
  have hsome : ∃ n, m.eval w = some n := by
    unfold eval apply
    split
    · next n h => exact ⟨n, rfl⟩
    · next h =>
      -- a counter with room has no overflow
      exfalso
      split at h
      · cases h
      · split at h
        · cases h
        · next target keys _ =>
          obtain ⟨step, -, hcommit⟩ :=
            exists_commit (m := { m with error := none }) hroom w.id w.stamp
          simp only [hcommit] at h
          split at h <;> cases h
    · next e h => exact ⟨_, rfl⟩
  obtain ⟨n, hn⟩ := hsome
  refine ⟨n, hn, ?_⟩
  cases outcome_of_eval hn with
  | ignored hclosed => omega
  | refused hopen hcheck => exact Nat.le_succ _
  | collected hopen hadmitted hstep hprogram => exact hstep.ge
  | authorized hopen hadmitted hstep hprogram =>
    rw [settle_eq]
    exact hstep.ge

theorem exists_fire (hroom : m.step.toNat + 1 < 2 ^ 64) (t : Task) :
    ∃ n, m.fire t = some n ∧ n.step.toNat ≤ m.step.toNat + 1 := by
  cases htarget : m.target? t with
  | none => exact ⟨m, fire_eq_some_iff.2 (.inl ⟨htarget, rfl⟩), Nat.le_succ _⟩
  | some r =>
    obtain ⟨label, goal⟩ := r
    obtain ⟨step, hstep, -⟩ := exists_commit hroom (m.firing t label).id t.due
    refine ⟨_, fire_eq_some_iff.2 (.inr ⟨label, goal, step, htarget, hstep, rfl⟩), ?_⟩
    rw [settle_eq]
    exact hstep.ge

theorem exists_fireDue (stop : UInt64) {ts : List Task}
    (hroom : m.step.toNat + ts.length < 2 ^ 64) :
    ∃ n, fireDue stop ts m = some n ∧ n.step.toNat + n.tasks.length ≤ m.step.toNat + ts.length := by
  -- each task takes at most the step that its own length stands for
  induction ts generalizing m with
  | nil => exact ⟨_, rfl, Nat.le_refl _⟩
  | cons t r ih =>
    rw [List.length_cons] at hroom ⊢
    rw [fireDue]
    split
    · obtain ⟨s, hs, hstep⟩ := exists_fire (m := m) (by omega) t
      have hrest : ({ s with tasks := r } : Machine).step.toNat + r.length < 2 ^ 64 := by
        show s.step.toNat + r.length < 2 ^ 64
        omega
      obtain ⟨n, hn, hcount⟩ := ih hrest
      refine ⟨n, ?_, ?_⟩
      · rw [hs]
        exact hn
      · replace hcount : n.step.toNat + n.tasks.length ≤ s.step.toNat + r.length := hcount
        omega
    · exact ⟨_, rfl, Nat.le_refl _⟩

theorem exists_run (hroom : m.step.toNat + m.tasks.length < 2 ^ 64) (stop : UInt64) :
    ∃ n, m.run stop = some n ∧
      n.step.toNat + n.tasks.length ≤ m.step.toNat + m.tasks.length := by
  by_cases hclosed : m.closed = true
  · exact ⟨m, run_of_closed hclosed, Nat.le_refl _⟩
  · have hclock : ({ m with error := none } : Machine).step.toNat + m.tasks.length < 2 ^ 64 := hroom
    obtain ⟨s, hs, hcount⟩ := exists_fireDue stop hclock
    obtain ⟨closed, closedAt, updatedAt, hexpired⟩ := expire_eq s stop
    refine ⟨s.expire stop, ?_, ?_⟩
    · rw [run_of_open (by simpa using hclosed), hs]
      rfl
    · rw [hexpired]
      exact hcount

theorem exists_accept (hroom : m.step.toNat + m.tasks.length + 1 < 2 ^ 64) (i : Input) :
    ∃ n, m.accept i = some n ∧
      n.step.toNat + n.tasks.length ≤ m.step.toNat + m.tasks.length + 1 := by
  cases i with
  | witness w =>
    have hwitness : m.step.toNat + 1 < 2 ^ 64 := by omega
    obtain ⟨n, hn, hstep⟩ := exists_eval hwitness w
    have htasks := tasks_of_outcome (outcome_of_eval hn)
    refine ⟨n, hn, ?_⟩
    rw [htasks]
    omega
  | clock stop =>
    obtain ⟨n, hn, hcount⟩ := exists_run (Nat.lt_of_succ_lt hroom) stop
    exact ⟨n, hn, Nat.le_succ_of_le hcount⟩

theorem exists_replay (hroom : m.step.toNat + m.tasks.length + inputs.length < 2 ^ 64) :
    ∃ n, m.replay inputs = some n := by
  induction inputs generalizing m with
  | nil => exact ⟨m, rfl⟩
  | cons i r ih =>
    rw [List.length_cons] at hroom
    obtain ⟨s, hs, hcount⟩ := exists_accept (m := m) (by omega) i
    obtain ⟨n, hn⟩ := ih (m := s) (by omega)
    refine ⟨n, ?_⟩
    rw [replay_cons, hs]
    exact hn

/-! ## The log and the fixed fields -/

/-- The log is the whole history of a run from a configuration: it verifies, its links are counted
and chained from the genesis, and the fields set at the start are as they were. -/
structure Recorded (c : MachineConfig) (m₀ m : Machine) : Prop where
  verified : m.verifyFromGenesis c = .ok ()
  count : m.step.toNat = m.commits.length
  steps : ∀ i (hi : i < m.commits.length), m.commits[i].step.toNat = i
  priors : ∀ i (hi : i < m.commits.length),
    m.commits[i].priorHead = headAfter c.genesis (m.commits.take i)
  head : m.head = headAfter c.genesis m.commits
  programs : m.programs = m₀.programs
  vmid : m.vmid = m₀.vmid
  engine : m.engine = m₀.engine
  activeAt : m.activeAt = m₀.activeAt
  expiresAt : m.expiresAt = m₀.expiresAt

/-- Every state that a run reaches has its history recorded, and a run reaches one unless its inputs
and tasks could fill the step counter. -/
theorem recorded_of_replay (hinit : init c = .ok m₀) :
    (∀ m, m₀.replay inputs = some m → Recorded c m₀ m) ∧
      (c.schedule.length + inputs.length < 2 ^ 64 → ∃ m, m₀.replay inputs = some m) := by
  constructor
  · intro m hrun
    have hchained := chained_of_replay hinit hrun
    have hfixed := fixed_of_replay hrun
    simp only [fixed, Prod.mk.injEq] at hfixed
    obtain ⟨hvmid, hengine, hactive, hexpires, hprograms⟩ := hfixed
    obtain ⟨hlinks, hhead⟩ := followLinks_eq_ok_iff.1 hchained.links
    refine ⟨verifyFromGenesis_of_replay hinit hrun, hchained.count, ?_, ?_, hhead, hprograms, hvmid,
      hengine, hactive, hexpires⟩
    · intro i hi
      have hplace := (hlinks i hi).1
      -- the counter has counted this far, so the place is no larger than a word
      have hsmall : i < 2 ^ 64 := by
        have hcount := hchained.count
        have hword := m.step.toNat_lt
        omega
      rwa [UInt64.toNat_zero, Nat.zero_add, Nat.zero_add, UInt64.toNat_ofNat_of_lt' hsmall,
        eq_comm] at hplace
    · intro i hi
      exact (hlinks i hi).2
  · intro hroom
    obtain ⟨paths, -, -, rfl⟩ := init_eq_ok hinit
    refine exists_replay ?_
    show UInt64.toNat 0 + c.tasks.length + inputs.length < 2 ^ 64
    have hlength : c.tasks.length = c.schedule.length := by
      rw [MachineConfig.tasks, List.length_mergeSort, List.length_map]
    rwa [hlength, UInt64.toNat_zero, Nat.zero_add]

/-- The history of the locked deposit: the lock and the closing task, with the release between them.
-/
theorem lockedDeposit_recorded :
    ∃ m, lockedStart.replay [.clock 560, .witness releaseWitness, .clock 600] = some m ∧
      m.commits.length = 3 ∧ Recorded lockedDeposit lockedStart m := by
  have hrun : ((lockedStart.replay [.clock 560, .witness releaseWitness, .clock 600]).any
      fun m => decide (m.commits.length = 3)) = true := by decide +kernel
  obtain ⟨m, hm, hlength⟩ := Option.any_eq_true _ _ |>.1 hrun
  exact ⟨m, hm, of_decide_eq_true hlength, (recorded_of_replay init_lockedDeposit).1 m hm⟩

end JointEscrow.Machine
