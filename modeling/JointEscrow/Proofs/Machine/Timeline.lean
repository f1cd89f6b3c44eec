import JointEscrow.Proofs.Machine.History
import JointEscrow.Proofs.Machine.Start

/-!
# The time of a machine

A witness carries its own time, and a task acts at the time that it is due. The gates on witnesses
keep them between the last update and the first task that waits, so the log only ever goes forward:
`Timely` is what every single move keeps, tasks due at the same time or at the very end included. An
open machine has not reached its end yet, because every run of the clock that gets there closes it
(`timely_of_replay`).
-/

namespace JointEscrow.Machine

variable {m m₀ n : Machine} {c : MachineConfig} {inputs : List Input} {stop stamp : UInt64}
  {w : Witness}

/-- How the times of a machine go with its configuration. The time of the last update is that of the
last link while the machine is open, and that of its end afterwards. -/
structure Timely (c : MachineConfig) (m : Machine) : Prop where
  expiresAt : m.expiresAt = c.expiresAt
  ordered : m.stamps.Pairwise (· ≤ ·)
  noted : ∀ t ∈ m.stamps, c.activeAt ≤ t ∧ t ≤ c.expiresAt
  current : m.closed = false → m.updatedAt = m.stamps.getLastD c.activeAt
  queued : m.tasks.Pairwise fun a b => a.due ≤ b.due
  within : ∀ t ∈ m.tasks, c.activeAt ≤ t.due ∧ t.due ≤ c.expiresAt
  waiting : m.closed = false → ∀ t ∈ m.tasks, m.updatedAt ≤ t.due
  bounded : m.updatedAt ≤ c.expiresAt
  ended : m.closed = true → m.closedAt = some m.updatedAt
  unsettled : m.closed = true → m.output = none → m.updatedAt = c.expiresAt

/-! ## One more link -/

theorem le_getLastD_of_mem {l : List UInt64} {t : UInt64} (h : l.Pairwise (· ≤ ·)) (ht : t ∈ l)
    (start : UInt64) : t ≤ l.getLastD start := by
  induction l using List.reverseRecOn with
  | nil => cases ht
  | append_singleton r a ih =>
    rw [List.getLastD_concat]
    rcases List.mem_append.1 ht with hr | ha
    · exact (List.pairwise_append.1 h).2.2 t hr a List.mem_cons_self
    · rw [List.mem_singleton.1 ha]
      exact UInt64.le_refl a

theorem Timely.activeAt_le (h : Timely c m) (hopen : m.closed = false) :
    c.activeAt ≤ m.updatedAt := by
  rw [h.current hopen]
  have hlast := List.getLastD_mem_cons (l := m.stamps) (a := c.activeAt)
  rcases List.mem_cons.1 hlast with heq | hmem
  · rw [heq]
    exact UInt64.le_refl _
  · exact (h.noted _ hmem).1

/-- A link that is noted between the last update and the tasks that are left keeps the times in
order. -/
theorem Timely.linked (h : Timely c m) (hopen : m.closed = false) (hlow : m.updatedAt ≤ stamp)
    (hhigh : stamp ≤ c.expiresAt) {r : List Task} (hr : r <:+ m.tasks)
    (hafter : ∀ t ∈ r, stamp ≤ t.due) (wid : Digest) (step : UInt64) :
    Timely c { m.linked wid stamp step with tasks := r } := by
  have hstamps : ({ m.linked wid stamp step with tasks := r } : Machine).stamps
      = m.stamps ++ [stamp] := List.map_append
  constructor
  case expiresAt => exact h.expiresAt
  case ordered =>
    rw [hstamps, List.pairwise_append]
    refine ⟨h.ordered, List.pairwise_singleton _ _, ?_⟩
    intro a ha b hb
    rw [List.mem_singleton.1 hb]
    have hlast := le_getLastD_of_mem h.ordered ha c.activeAt
    rw [← h.current hopen] at hlast
    exact UInt64.le_trans hlast hlow
  case noted =>
    intro t ht
    rw [hstamps] at ht
    rcases List.mem_append.1 ht with hold | hnew
    · exact h.noted t hold
    · rw [List.mem_singleton.1 hnew]
      exact ⟨UInt64.le_trans (h.activeAt_le hopen) hlow, hhigh⟩
  case current =>
    intro _
    rw [hstamps, List.getLastD_concat]
    rfl
  case queued => exact h.queued.sublist hr.sublist
  case within =>
    intro t ht
    exact h.within t (hr.subset ht)
  case waiting =>
    intro _
    exact hafter
  case bounded => exact hhigh
  case ended =>
    intro hclosed
    exact absurd (hopen.symm.trans hclosed) Bool.false_ne_true
  case unsettled =>
    intro hclosed
    exact absurd (hopen.symm.trans hclosed) Bool.false_ne_true

/-- A path that is settled at the last update may end the machine, and then with an outcome. -/
theorem Timely.settle (h : Timely c m) (hopen : m.closed = false) (label : String)
    (goal : PathState) : Timely c (m.settle label goal m.updatedAt) := by
  rw [settle_eq]
  exact { h with
    current := fun _ => h.current hopen
    waiting := fun _ => h.waiting hopen
    ended := by
      intro hclosed
      have hcloses : m.closesAt label goal = true := by simpa [hopen] using hclosed
      exact if_pos hcloses
    unsettled := by
      intro hclosed hnone
      have hcloses : m.closesAt label goal = true := by simpa [hopen] using hclosed
      simp [hcloses] at hnone }

/-- An admitted witness comes before all tasks that wait, since it comes before the first. -/
theorem Admitted.stamp_le {current goal : PathState} {keys : SortedSet PublicKey}
    (h : m.Admitted w current goal keys) (hqueued : m.tasks.Pairwise fun a b => a.due ≤ b.due) :
    ∀ t ∈ m.tasks, w.stamp ≤ t.due := by
  have hfirst := h.beforeTasks
  intro t ht
  cases htasks : m.tasks with
  | nil =>
    rw [htasks] at ht
    cases ht
  | cons a r =>
    rw [htasks] at ht hqueued hfirst
    have ha : w.stamp ≤ a.due := UInt64.le_of_lt (hfirst a rfl)
    rcases List.mem_cons.1 ht with rfl | hr
    · exact ha
    · exact UInt64.le_trans ha ((List.pairwise_cons.1 hqueued).1 t hr)

/-! ## Single moves -/

theorem Timely.accepting (h : Timely c m) (hopen : m.closed = false) {current goal : PathState}
    {keys : SortedSet PublicKey} (hadmitted : m.Admitted w current goal keys) (step : UInt64) :
    Timely c (m.accepting w keys step) := by
  have hhigh : w.stamp ≤ c.expiresAt := h.expiresAt ▸ UInt64.le_of_lt hadmitted.notLate
  have hlinked := h.linked hopen hadmitted.notEarly hhigh List.suffix_rfl
    (hadmitted.stamp_le h.queued) w.id step
  exact { hlinked with }

theorem Timely.outcome (h : Timely c m) (houtcome : Outcome m w n) : Timely c n := by
  cases houtcome with
  | ignored hclosed => exact h
  | refused hopen hcheck => exact { h with }
  | collected hopen hadmitted hstep hprogram => exact h.accepting hopen hadmitted _
  | authorized hopen hadmitted hstep hprogram =>
    exact (h.accepting hopen hadmitted _).settle hopen _ _

theorem Timely.tick (h : Timely c m) (htick : Tick stop m n) : Timely c n := by
  have hqueued := h.queued
  cases htick with
  | @skipped t r hopen htasks hdue hspan htarget =>
    have hsuffix : r <:+ m.tasks := htasks ▸ List.suffix_cons t r
    exact { h with
      queued := hqueued.sublist hsuffix.sublist
      within := fun t ht => h.within t (hsuffix.subset ht)
      waiting := fun _ t ht => h.waiting hopen t (hsuffix.subset ht) }
  | @fired t r label goal step hopen htasks hdue hspan htarget hstep =>
    have hsuffix : r <:+ m.tasks := htasks ▸ List.suffix_cons t r
    have hlow : m.updatedAt ≤ t.due := h.waiting hopen t (htasks ▸ List.mem_cons_self)
    rw [htasks] at hqueued
    have hlinked := h.linked hopen hlow (h.expiresAt ▸ hspan) hsuffix
      (List.pairwise_cons.1 hqueued).1 (m.firing t label).id step
    have hsettled := hlinked.settle hopen label goal
    rw [settle_eq] at hsettled ⊢
    exact hsettled

/-- The last update is not after the end, so the end is the later of the two. -/
theorem Timely.later_eq (h : Timely c m) :
    (if m.updatedAt < m.expiresAt then m.expiresAt else m.updatedAt) = c.expiresAt := by
  have hbounded := h.bounded
  rw [h.expiresAt]
  split
  · rfl
  · next hnot => exact UInt64.le_antisymm hbounded (UInt64.not_lt.1 hnot)

theorem Timely.expire (h : Timely c m) (stop : UInt64) : Timely c (m.expire stop) := by
  unfold Machine.expire
  split
  · have hlater := h.later_eq
    exact { h with
      current := nofun
      waiting := nofun
      bounded := by
        show (if m.updatedAt < m.expiresAt then m.expiresAt else m.updatedAt) ≤ _
        rw [hlater]
        exact UInt64.le_refl _
      ended := by
        intro _
        show some m.expiresAt
          = some (if m.updatedAt < m.expiresAt then m.expiresAt else m.updatedAt)
        rw [hlater, h.expiresAt]
      unsettled := fun _ _ => hlater }
  · exact h

theorem Timely.move (h : Timely c m) (hmove : Move m n) : Timely c n := by
  cases hmove with
  | witness houtcome => exact h.outcome houtcome
  | tick htick => exact h.tick htick
  | cleared => exact { h with }
  | expired hopen hidle hover => exact h.expire _

theorem timely_of_init (hinit : init c = .ok m) : Timely c m := by
  have hstart := MachineConfig.exists_init_iff.1 ⟨m, hinit⟩
  obtain ⟨paths, -, hspan, rfl⟩ := init_eq_ok hinit
  have hdue : ∀ t ∈ c.tasks, c.activeAt ≤ t.due ∧ t.due ≤ c.expiresAt := fun t => hstart.due_within
  exact ⟨rfl, .nil, nofun, fun _ => rfl, ordered_tasks c, hdue, fun _ t ht => (hdue t ht).1,
    UInt64.le_of_lt hspan, nofun, nofun⟩

/-! ## The end -/

theorem updatedAt_of_tick (h : Tick stop m n) : n.updatedAt = m.updatedAt ∨ n.updatedAt ≤ stop := by
  cases h with
  | skipped hopen htasks hdue hspan htarget => exact .inl rfl
  | fired hopen htasks hdue hspan htarget hstep =>
    rw [settle_eq]
    exact .inr hdue

theorem updatedAt_of_ticks (h : Ticks stop m n) :
    n.updatedAt = m.updatedAt ∨ n.updatedAt ≤ stop := by
  induction h with
  | refl => exact .inl rfl
  | tail _ htick ih =>
    rcases updatedAt_of_tick htick with heq | hle
    · rw [heq]
      exact ih
    · exact .inr hle

/-- An input leaves a machine open only before its end. -/
theorem updatedAt_lt_of_accept {i : Input} (h : m.accept i = some n)
    (hm : m.closed = false → m.updatedAt < m.expiresAt) (hn : n.closed = false) :
    n.updatedAt < n.expiresAt := by
  cases i with
  | witness w =>
    cases outcome_of_eval h with
    | ignored hclosed => exact absurd (hn.symm.trans hclosed) Bool.false_ne_true
    | refused hopen hcheck => exact hm hopen
    | collected hopen hadmitted hstep hprogram => exact hadmitted.notLate
    | authorized hopen hadmitted hstep hprogram =>
      rw [settle_eq]
      exact hadmitted.notLate
  | clock stop =>
    change m.run stop = some n at h
    cases hclosed : m.closed with
    | true =>
      rw [run_of_closed hclosed] at h
      cases h
      exact absurd (hn.symm.trans hclosed) Bool.false_ne_true
    | false =>
      obtain ⟨s, hticks, -, rfl⟩ := ticks_of_run hclosed h
      have hstays := expire_of_open hn
      rw [hstays] at hn ⊢
      have hspan := expiresAt_of_ticks hticks
      change s.expiresAt = m.expiresAt at hspan
      -- an open machine that expiry leaves alone has not come to its end
      have hbefore : ¬ s.expiresAt ≤ stop := by
        intro hover
        unfold Machine.expire at hstays
        rw [if_pos ⟨hn, hover⟩] at hstays
        exact Bool.false_ne_true (hn.symm.trans (congrArg closed hstays).symm)
      rcases updatedAt_of_ticks hticks with heq | hle
      · rw [heq, hspan]
        exact hm hclosed
      · exact UInt64.lt_of_le_of_lt hle (UInt64.not_le.1 hbefore)

theorem updatedAt_lt_of_replay (hrun : m.replay inputs = some n)
    (hm : m.closed = false → m.updatedAt < m.expiresAt) :
    n.closed = false → n.updatedAt < n.expiresAt := by
  induction inputs generalizing m with
  | nil =>
    cases hrun
    exact hm
  | cons i r ih =>
    rw [replay_cons, Option.bind_eq_some_iff] at hrun
    obtain ⟨s, haccept, hrest⟩ := hrun
    exact ih hrest (updatedAt_lt_of_accept haccept hm)

/-- A run of the clock to the end of a machine, or past it, closes it. -/
theorem closed_of_run (hrun : m.run stop = some n) (hover : m.expiresAt ≤ stop) :
    n.closed = true := by
  cases hclosed : m.closed with
  | true =>
    rw [run_of_closed hclosed] at hrun
    cases hrun
    exact hclosed
  | false =>
    obtain ⟨s, hticks, -, rfl⟩ := ticks_of_run hclosed hrun
    have hspan := expiresAt_of_ticks hticks
    change s.expiresAt = m.expiresAt at hspan
    cases hs : s.closed with
    | true =>
      have hstays : s.expire stop = s := if_neg (by simp [hs])
      rw [hstays]
      exact hs
    | false =>
      unfold Machine.expire
      rw [if_pos ⟨hs, hspan ▸ hover⟩]

/-- In every state that a run reaches, the log goes forward within the span of the machine, and
what is noted and what waits is on either side of the last update. An open machine is before its
end. A closed one ended with its last update, which was at the end of the span unless it has an
outcome; and running to that end closes it. -/
theorem timely_of_replay (hinit : init c = .ok m₀) (hrun : m₀.replay inputs = some m) :
    Timely c m ∧ (m.closed = false → m.updatedAt < c.expiresAt) ∧
      ∀ stop, c.expiresAt ≤ stop →
        (∀ n, m.run stop = some n → n.closed = true) ∧
          (m.step.toNat + m.tasks.length < 2 ^ 64 → ∃ n, m.run stop = some n) := by
  have htimely : Timely c m :=
    moves_keep (fun _ _ => Timely.move) (moves_of_replay hrun) (timely_of_init hinit)
  have hspan := htimely.expiresAt
  refine ⟨htimely, ?_, ?_⟩
  · rw [← hspan]
    apply updatedAt_lt_of_replay hrun
    intro _
    obtain ⟨paths, -, hspan, rfl⟩ := init_eq_ok hinit
    exact hspan
  · intro stop hover
    constructor
    · intro n hn
      exact closed_of_run hn (hspan ▸ hover)
    · intro hroom
      obtain ⟨n, hn, -⟩ := exists_run hroom stop
      exact ⟨n, hn⟩

/-- The released deposit, before its closing task and after it. -/
theorem lockedDeposit_timely :
    ∃ m n, lockedStart.replay [.clock 560, .witness releaseWitness] = some m ∧
      Timely lockedDeposit m ∧ m.stamps = [560, 580] ∧ m.updatedAt < lockedDeposit.expiresAt ∧
        m.run 1500 = some n ∧ n.closed = true := by
  have hrun : ((lockedStart.replay [.clock 560, .witness releaseWitness]).any fun m =>
      decide (m.stamps = [560, 580]) && decide (m.closed = false) &&
        decide (m.step.toNat + m.tasks.length < 2 ^ 64)) = true := by decide +kernel
  obtain ⟨m, hm, hends⟩ := Option.any_eq_true _ _ |>.1 hrun
  simp only [Bool.and_eq_true, decide_eq_true_eq] at hends
  obtain ⟨⟨hstamps, hopen⟩, hroom⟩ := hends
  obtain ⟨htimely, hbefore, hends⟩ := timely_of_replay init_lockedDeposit hm
  obtain ⟨n, hn⟩ := (hends 1500 (UInt64.le_refl _)).2 hroom
  exact ⟨m, n, hm, htimely, hstamps, hbefore hopen, hn, (hends 1500 (UInt64.le_refl _)).1 n hn⟩

end JointEscrow.Machine
