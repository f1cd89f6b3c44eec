import JointEscrow.Machine.Log
import JointEscrow.Proofs.Machine.Replay

/-!
# The log of a run

What the check of a log comes to is `verifyFromGenesis_eq_ok_iff`, and what it says of every single
link `followLinks_eq_ok_iff`. Whatever a run of the machine takes in, its log stays a chain of links
from the head of its configuration, with steps counted from zero. The invariant `Chained` says so
through the links' own check, and `verifyFromGenesis_of_replay` concludes that the log of every run
verifies.
-/

namespace JointEscrow

variable {ε : Type}

theorem addOrHalt_eq_ok_iff {a b c : UInt64} :
    (addOrHalt a b : Except (Halt ε) UInt64) = .ok c ↔ a.toNat + b.toNat = c.toNat := by
  rw [← addChecked_eq_some_iff]
  unfold addOrHalt
  cases addChecked a b <;> simp

namespace Machine

variable {m n : Machine} {genesis : Digest} {inputs : List Input}

/-! ## Following links -/

theorem followLinks_nil_eq_ok_iff {first : UInt64} {i : Nat} {head last : Digest} :
    followLinks first i head [] = .ok last ↔ head = last := by
  rw [followLinks, Except.ok.injEq]

theorem followLinks_cons_eq_ok_iff {first : UInt64} {i : Nat} {head last : Digest} {link : Commit}
    {links : List Commit} :
    followLinks first i head (link :: links) = .ok last ↔
      first.toNat + (UInt64.ofNat i).toNat = link.step.toNat ∧ link.priorHead = head ∧
        followLinks first (i + 1) (.chain head link.wid) links = .ok last := by
  rw [followLinks, bind_eq_ok_iff]
  simp only [addOrHalt_eq_ok_iff, check_bind_eq_ok_iff, ensure_eq_ok_iff, decide_eq_true_eq]
  constructor
  · rintro ⟨expected, hexpected, rfl, hhead, hrest⟩
    exact ⟨hexpected, hhead, hrest⟩
  · rintro ⟨hstep, hhead, hrest⟩
    exact ⟨link.step, hstep, rfl, hhead, hrest⟩

theorem followLinks_append {first : UInt64} {i : Nat} {head last : Digest} {a b : List Commit} :
    followLinks first i head (a ++ b) = .ok last ↔
      ∃ mid, followLinks first i head a = .ok mid ∧
        followLinks first (i + a.length) mid b = .ok last := by
  -- the count of links before the present one grows along the induction
  induction a generalizing i head with
  | nil =>
    constructor
    · intro h
      exact ⟨head, rfl, h⟩
    · rintro ⟨mid, ⟨⟩, h⟩
      exact h
  | cons link r ih =>
    rw [List.cons_append, followLinks_cons_eq_ok_iff, ih, List.length_cons,
      Nat.add_comm r.length 1, ← Nat.add_assoc]
    simp only [followLinks_cons_eq_ok_iff]
    tauto

/-- The last link carries on the chain of the links before it. -/
theorem followLinks_snoc_eq_ok_iff {first : UInt64} {i : Nat} {head last : Digest}
    {links : List Commit} {link : Commit} :
    followLinks first i head (links ++ [link]) = .ok last ↔
      followLinks first i head links = .ok link.priorHead ∧
        first.toNat + (UInt64.ofNat (i + links.length)).toNat = link.step.toNat ∧
          last = .chain link.priorHead link.wid := by
  rw [followLinks_append]
  simp only [followLinks_cons_eq_ok_iff, followLinks_nil_eq_ok_iff]
  constructor
  · rintro ⟨mid, hlinks, hstep, rfl, rfl⟩
    exact ⟨hlinks, hstep, rfl⟩
  · rintro ⟨hlinks, hstep, rfl⟩
    exact ⟨link.priorHead, hlinks, hstep, rfl, rfl⟩

/-- The head after some links, each chained to the one before. -/
def headAfter (head : Digest) (links : List Commit) : Digest :=
  links.foldl (fun h link => .chain h link.wid) head

theorem headAfter_cons (head : Digest) (link : Commit) (links : List Commit) :
    headAfter head (link :: links) = headAfter (.chain head link.wid) links := List.foldl_cons ..

/-- Links are followed when each of them has its place as step and, as head before it, the head
after those in front. -/
theorem followLinks_eq_ok_iff {first : UInt64} {i : Nat} {head last : Digest}
    {links : List Commit} :
    followLinks first i head links = .ok last ↔
      (∀ k (hk : k < links.length),
        first.toNat + (UInt64.ofNat (i + k)).toNat = links[k].step.toNat ∧
          links[k].priorHead = headAfter head (links.take k)) ∧
        last = headAfter head links := by
  induction links generalizing i head with
  | nil =>
    rw [followLinks_nil_eq_ok_iff, eq_comm]
    simp [headAfter]
  | cons link r ih =>
    have hshift : ∀ k, i + 1 + k = i + (k + 1) := by omega
    rw [followLinks_cons_eq_ok_iff, ih, headAfter_cons]
    simp only [hshift]
    constructor
    · rintro ⟨hstep, hprior, hrest, hlast⟩
      refine ⟨fun k hk => ?_, hlast⟩
      cases k with
      | zero => exact ⟨hstep, hprior⟩
      | succ k =>
        rw [List.getElem_cons_succ, List.take_succ_cons, headAfter_cons]
        exact hrest k (Nat.lt_of_succ_lt_succ hk)
    · rintro ⟨hall, hlast⟩
      obtain ⟨hstep, hprior⟩ := hall 0 (Nat.zero_lt_succ _)
      refine ⟨hstep, hprior, fun k hk => ?_, hlast⟩
      have hnext := hall (k + 1) (Nat.succ_lt_succ hk)
      rwa [List.getElem_cons_succ, List.take_succ_cons, headAfter_cons] at hnext

/-- The links lead from one head to another without a gap: each has its place as step and, as head
before it, the head after those in front. -/
structure GapFree (genesis : Digest) (links : List Commit) (last : Digest) : Prop where
  steps : ∀ k (hk : k < links.length), links[k].step = UInt64.ofNat k
  priors : ∀ k (hk : k < links.length), links[k].priorHead = headAfter genesis (links.take k)
  last : last = headAfter genesis links

theorem gapFree_of_followLinks {genesis last : Digest} {links : List Commit}
    (h : followLinks 0 0 genesis links = .ok last) : GapFree genesis links last := by
  obtain ⟨hlinks, hlast⟩ := followLinks_eq_ok_iff.1 h
  refine ⟨?_, fun k hk => (hlinks k hk).2, hlast⟩
  intro k hk
  have hstep := (hlinks k hk).1
  rw [UInt64.toNat_zero, Nat.zero_add, Nat.zero_add, UInt64.toNat_inj] at hstep
  exact hstep.symm

theorem verifyLog_eq_ok_iff_of_cons {first : Commit} {rest : List Commit}
    (hcommits : m.commits = first :: rest) :
    m.verifyLog = .ok () ↔
      followLinks first.step 0 first.priorHead m.commits = .ok m.head ∧
        first.step.toNat + (UInt64.ofNat m.commits.length).toNat = m.step.toNat := by
  unfold verifyLog
  rw [hcommits, bind_eq_ok_iff]
  simp only [check_bind_eq_ok_iff, ensure_eq_ok_iff, decide_eq_true_eq]
  constructor
  · rintro ⟨head, hlinks, rfl, hcount⟩
    obtain ⟨count, hcount, hstep⟩ := bind_eq_ok_iff.1 hcount
    rw [ensure_eq_ok_iff, decide_eq_true_eq] at hstep
    exact ⟨hlinks, hstep ▸ addOrHalt_eq_ok_iff.1 hcount⟩
  · rintro ⟨hlinks, hcount⟩
    refine ⟨m.head, hlinks, rfl, bind_eq_ok_iff.2 ⟨m.step, addOrHalt_eq_ok_iff.2 hcount, ?_⟩⟩
    rw [ensure_eq_ok_iff, decide_eq_true_eq]

/-- A log verifies when its links lead from the genesis to the head and the counter counts them. -/
theorem verifyFromGenesis_eq_ok_iff {c : MachineConfig} :
    m.verifyFromGenesis c = .ok () ↔
      followLinks 0 0 c.genesis m.commits = .ok m.head ∧
        UInt64.ofNat m.commits.length = m.step := by
  unfold verifyFromGenesis
  rw [check_bind_eq_ok_iff, ensure_eq_ok_iff, Bool.and_eq_true, decide_eq_true_eq]
  unfold startHead startsAtZero
  cases hcommits : m.commits with
  | nil =>
    -- an empty log is checked by its step counter alone
    unfold verifyLog
    rw [hcommits, followLinks_nil_eq_ok_iff, eq_comm]
    simp [eq_comm (a := m.step)]
  | cons first rest =>
    simp only [decide_eq_true_eq]
    rw [verifyLog_eq_ok_iff_of_cons hcommits, hcommits, ← UInt64.toNat_inj (b := m.step)]
    constructor
    · rintro ⟨⟨hprior, hzero⟩, hlinks, hcount⟩
      rw [hprior, hzero] at hlinks
      rw [hzero, UInt64.toNat_zero, Nat.zero_add] at hcount
      exact ⟨hlinks, hcount⟩
    · rintro ⟨hlinks, hcount⟩
      obtain ⟨hstep, hprior, -⟩ := followLinks_cons_eq_ok_iff.1 hlinks
      have hzero : first.step = 0 := UInt64.toNat_inj.1 hstep.symm
      rw [hprior, hzero, UInt64.toNat_zero, Nat.zero_add]
      exact ⟨⟨rfl, rfl⟩, hlinks, hcount⟩

/-! ## The log of a run -/

/-- The log is a chain from the first head to the machine's own, with one step a link. -/
structure Chained (genesis : Digest) (m : Machine) : Prop where
  links : followLinks 0 0 genesis m.commits = .ok m.head
  count : m.step.toNat = m.commits.length

theorem Chained.linked (h : Chained genesis m) (wid : Digest) (stamp : UInt64) {step : UInt64}
    (hstep : m.step.toNat + 1 = step.toNat) : Chained genesis (m.linked wid stamp step) := by
  have hlength : (UInt64.ofNat (0 + m.commits.length)).toNat = m.commits.length := by
    rw [Nat.zero_add, ← h.count, UInt64.ofNat_toNat]
  constructor
  · refine followLinks_snoc_eq_ok_iff.2 ⟨h.links, ?_, rfl⟩
    rw [hlength, h.count, UInt64.toNat_zero, Nat.zero_add]
  · show step.toNat = (m.commits ++ [_]).length
    rw [List.length_append, List.length_singleton, ← h.count, hstep]

theorem Chained.accepting (h : Chained genesis m) (w : Witness) (keys : SortedSet PublicKey)
    {step : UInt64} (hstep : m.step.toNat + 1 = step.toNat) :
    Chained genesis (m.accepting w keys step) := by
  have hlinked := h.linked w.id w.stamp hstep
  exact ⟨hlinked.links, hlinked.count⟩

theorem Chained.settle (h : Chained genesis m) (label : String) (goal : PathState)
    (stamp : UInt64) : Chained genesis (m.settle label goal stamp) := by
  rw [settle_eq]
  exact ⟨h.links, h.count⟩

theorem Chained.move (h : Chained genesis m) (hmove : Move m n) : Chained genesis n := by
  cases hmove with
  | @witness w n houtcome =>
    cases houtcome with
    | ignored hclosed => exact h
    | refused hopen hcheck => exact ⟨h.links, h.count⟩
    | collected hopen hadmitted hstep hprogram => exact h.accepting w _ hstep
    | authorized hopen hadmitted hstep hprogram => exact (h.accepting w _ hstep).settle _ _ _
  | tick htick =>
    cases htick with
    | skipped hopen htasks hdue hspan htarget => exact ⟨h.links, h.count⟩
    | @fired t r label goal step hopen htasks hdue hspan htarget hstep =>
      have hsettled := (h.linked (m.firing t label).id t.due hstep).settle label goal t.due
      exact ⟨hsettled.links, hsettled.count⟩
  | cleared => exact ⟨h.links, h.count⟩
  | expired hopen hidle hover =>
    obtain ⟨closed, closedAt, updatedAt, hexpired⟩ := expire_eq m _
    rw [hexpired]
    exact ⟨h.links, h.count⟩

theorem chained_of_replay {c : MachineConfig} {m₀ : Machine} (hinit : init c = .ok m₀)
    (hrun : m₀.replay inputs = some m) : Chained c.genesis m := by
  refine moves_keep (fun _ _ => Chained.move) (moves_of_replay hrun) ?_
  obtain ⟨paths, -, -, rfl⟩ := init_eq_ok hinit
  exact ⟨rfl, rfl⟩

/-- The log of every run verifies from the head of the configuration. -/
theorem verifyFromGenesis_of_replay {c : MachineConfig} {m₀ : Machine} (hinit : init c = .ok m₀)
    (hrun : m₀.replay inputs = some m) : m.verifyFromGenesis c = .ok () := by
  have hchained := chained_of_replay hinit hrun
  refine verifyFromGenesis_eq_ok_iff.2 ⟨hchained.links, ?_⟩
  rw [← hchained.count, UInt64.ofNat_toNat]

end Machine

end JointEscrow
