import JointEscrow.Proofs.Machine.Course

/-!
# Hosts that trail each other

Of two hosts that commit the same witnesses one may have passed over tasks, used up without effect,
that still wait at the other. Then it is `Trails` that relates them: they differ in nothing else, and
each task passed over was due before any that is left. A task that acts after all shows its time in
the log, where the host ahead can only show later ones. So hosts whose logs note the same times
differ in waiting tasks at most (`eq_of_stamps`).
-/

namespace JointEscrow.Machine

variable {m n x y b b₁ b₂ s s₁ s₂ : Machine} {stop bound t : UInt64} {w : Witness}
  {passed : List Task}

/-- The times that the log notes. -/
def stamps (m : Machine) : List UInt64 := m.commits.map (·.stamp)

/-- The machine with other tasks waiting. -/
def waiting (m : Machine) (tasks : List Task) : Machine := { m with tasks := tasks }

/-- What holds of a machine that has refused no witness since its last change. -/
structure Steady (m : Machine) : Prop where
  error : m.error = none
  ordered : m.tasks.Pairwise fun a b => a.due ≤ b.due
  counted : m.commits.length = m.step.toNat

/-! ## A witness -/

theorem step_committed (m : Machine) (w : Witness) (goal : PathState) (keys : SortedSet PublicKey)
    (step : UInt64) : (m.committed w goal keys step).step = step := by
  unfold committed
  split
  · rw [settle_eq]
    rfl
  · rfl

theorem committed_waiting (m : Machine) (w : Witness) (goal : PathState)
    (keys : SortedSet PublicKey) (step : UInt64) (tasks : List Task) :
    (m.waiting tasks).committed w goal keys step =
      (m.committed w goal keys step).waiting tasks := by
  have hprograms : (m.waiting tasks).programs = m.programs := rfl
  unfold committed
  rw [hprograms]
  split
  · rw [settle_eq, settle_eq]
    rfl
  · rfl

theorem Steady.commits (h : Steady m) (hcommits : m.Commits w n) : Steady n := by
  have htasks := tasks_of_outcome (outcome_of_eval hcommits.1)
  refine ⟨hcommits.accepted.2.1, htasks ▸ h.ordered, ?_⟩
  rw [hcommits.2, List.length_append, h.counted]
  obtain ⟨current, goal, keys, step, -, hstep, rfl⟩ := hcommits.eq_committed
  rw [step_committed]
  exact hstep

/-- Which other tasks wait makes no difference to a witness that is committed. -/
theorem commits_waiting {tasks : List Task} (h : m.Commits w n)
    (h' : (m.waiting tasks).Commits w s) : s = n.waiting tasks := by
  obtain ⟨current, goal, keys, step, hadmitted, hstep, rfl⟩ := h.eq_committed
  obtain ⟨current', goal', keys', step', hadmitted', hstep', rfl⟩ := h'.eq_committed
  -- the first waiting task is only read by a gate that both have passed
  have hcurrent : current' = current := Option.some.inj (hadmitted'.state.symm.trans hadmitted.state)
  rw [hcurrent] at hadmitted'
  have hgoal : goal' = goal := Option.some.inj (hadmitted'.admits.symm.trans hadmitted.admits)
  have hkeys : keys' = keys := Except.ok.inj (hadmitted'.collected.symm.trans hadmitted.collected)
  have hsteps : step' = step := UInt64.toNat_inj.1 (hstep'.symm.trans hstep)
  rw [hgoal, hkeys, hsteps]
  exact committed_waiting m w goal keys step tasks

/-! ## One task -/

/-- A task that is used up is passed over, or it acts and its time is noted. -/
theorem tick_cases (h : Tick stop m n) :
    ∃ t r, m.tasks = t :: r ∧ t.due ≤ stop ∧ t.due ≤ m.expiresAt ∧
      (n = m.waiting r ∨ n.stamps = m.stamps ++ [t.due]) := by
  cases h with
  | @skipped t r hopen htasks hdue hspan htarget => exact ⟨t, r, htasks, hdue, hspan, .inl rfl⟩
  | @fired t r label goal step hopen htasks hdue hspan htarget hstep =>
    refine ⟨t, r, htasks, hdue, hspan, .inr ?_⟩
    rw [settle_eq]
    exact List.map_append

theorem Steady.tick (h : Steady m) (htick : Tick stop m n) : Steady n := by
  have hordered := h.ordered
  cases htick with
  | skipped hopen htasks hdue hspan htarget =>
    rw [htasks, List.pairwise_cons] at hordered
    exact ⟨h.error, hordered.2, h.counted⟩
  | @fired t r label goal step hopen htasks hdue hspan htarget hstep =>
    rw [htasks, List.pairwise_cons] at hordered
    rw [settle_eq]
    refine ⟨h.error, hordered.2, ?_⟩
    change (m.commits ++ [_]).length = step.toNat
    rw [List.length_append, h.counted]
    exact hstep

theorem stamps_of_tick (h : Tick stop m n) : m.stamps <+: n.stamps := by
  obtain ⟨t, r, -, -, -, rfl | hstamps⟩ := tick_cases h
  · exact List.prefix_rfl
  · exact ⟨[t.due], hstamps.symm⟩

/-! ## Any number of tasks -/

theorem Steady.ticks (h : Steady m) (hticks : Ticks stop m n) : Steady n := by
  induction hticks with
  | refl => exact h
  | tail _ htick ih => exact ih.tick htick

theorem stamps_of_ticks (h : Ticks stop m n) : m.stamps <+: n.stamps := by
  induction h with
  | refl => exact List.prefix_rfl
  | tail _ htick ih => exact ih.trans (stamps_of_tick htick)

/-- Either all tasks that are used up are passed over, or the first one that acts is noted. -/
theorem ticks_cases (h : Ticks stop m n) :
    (∃ passed, m = n.waiting (passed ++ n.tasks) ∧
        ∀ k ∈ passed, k.due ≤ stop ∧ k.due ≤ m.expiresAt) ∨
      ∃ t ∈ m.tasks, t.due ≤ m.expiresAt ∧ ∃ rest, n.stamps = m.stamps ++ t.due :: rest := by
  induction h using Relation.ReflTransGen.head_induction_on with
  | refl => exact .inl ⟨[], rfl, nofun⟩
  | @head m s htick hrest ih =>
    obtain ⟨t, r, htasks, hdue, hspan, rfl | hstamps⟩ := tick_cases htick
    · rcases ih with ⟨passed, hsame, hpassed⟩ | ⟨k, hk, hkspan, hlater⟩
      · refine .inl ⟨t :: passed, ?_, ?_⟩
        · -- the tasks passed over go back in front, the first one before the others
          have hr : r = passed ++ n.tasks := congrArg tasks hsame
          have hback := congrArg (fun s : Machine => s.waiting m.tasks) hsame
          rw [List.cons_append, ← hr, ← htasks]
          exact hback
        · intro k hk
          rcases List.mem_cons.1 hk with rfl | hk
          · exact ⟨hdue, hspan⟩
          · exact hpassed k hk
      · exact .inr ⟨k, htasks ▸ List.mem_cons_of_mem t hk, hkspan, hlater⟩
    · obtain ⟨rest, hrest⟩ := stamps_of_ticks hrest
      refine .inr ⟨t, htasks ▸ List.mem_cons_self, hspan, rest, ?_⟩
      rw [← hrest, hstamps, List.append_assoc, List.singleton_append]

/-- A host with more tasks to do first stops among them, or passes over all of them, or is the first
to note the time of one. -/
theorem ticks_waiting_cases (h : Ticks stop (m.waiting (passed ++ m.tasks)) n) :
    (∃ left, left <:+ passed ∧ n = m.waiting (left ++ m.tasks)) ∨ Ticks stop m n ∨
      ∃ k ∈ passed, ∃ rest, n.stamps = m.stamps ++ k.due :: rest := by
  induction passed with
  | nil => exact .inr (.inl h)
  | cons k r ih =>
    rcases h.cases_head with rfl | ⟨s, htick, hrest⟩
    · exact .inl ⟨k :: r, List.suffix_rfl, rfl⟩
    · obtain ⟨t, r', htasks, -, -, rfl | hstamps⟩ := tick_cases htick
      · -- the first task is passed over here too, and fewer are left
        obtain ⟨rfl, rfl⟩ : k = t ∧ r ++ m.tasks = r' := List.cons.inj htasks
        rcases ih hrest with ⟨left, hleft, hn⟩ | hticks | ⟨j, hj, hnoted⟩
        · exact .inl ⟨left, hleft.trans (List.suffix_cons _ _), hn⟩
        · exact .inr (.inl hticks)
        · exact .inr (.inr ⟨j, List.mem_cons_of_mem _ hj, hnoted⟩)
      · obtain ⟨rfl, -⟩ : k = t ∧ r ++ m.tasks = r' := List.cons.inj htasks
        obtain ⟨rest, hrest⟩ := stamps_of_ticks hrest
        refine .inr (.inr ⟨k, List.mem_cons_self, rest, ?_⟩)
        rw [← hrest, hstamps, List.append_assoc, List.singleton_append]
        rfl

theorem fireDue_of_ticks (h : Ticks stop m n) (hidle : n.Idle stop) :
    fireDue stop m.tasks m = some n := by
  induction h using Relation.ReflTransGen.head_induction_on with
  | refl => exact fireDue_of_idle hidle
  | @head m s htick hrest ih =>
    cases htick with
    | @skipped t r hopen htasks hdue hspan htarget =>
      have hfire : m.fire t = some m := fire_eq_some_iff.2 (.inl ⟨htarget, rfl⟩)
      rw [htasks, fireDue, if_pos ⟨hopen, hdue, hspan⟩, hfire]
      exact ih
    | @fired t r label goal step hopen htasks hdue hspan htarget hstep =>
      have hfire := fire_eq_some_iff.2 (.inr ⟨label, goal, step, htarget, hstep, rfl⟩)
      rw [htasks, fireDue, if_pos ⟨hopen, hdue, hspan⟩, hfire]
      exact ih

/-! ## One advance of the clock -/

theorem stamps_expire (m : Machine) (stop : UInt64) : (m.expire stop).stamps = m.stamps := by
  obtain ⟨closed, closedAt, updatedAt, h⟩ := expire_eq m stop
  rw [h]
  rfl

theorem expire_of_open (hopen : (m.expire stop).closed = false) : m.expire stop = m := by
  unfold expire at hopen ⊢
  split at hopen
  · cases hopen
  · next hstays => rw [if_neg hstays]

theorem Steady.clean (h : Steady m) : { m with error := none } = m := by rw [← h.error]

theorem run_of_ticks (h : Steady m) (hopen : m.closed = false) (hticks : Ticks stop m s)
    (hidle : s.Idle stop) : m.run stop = some (s.expire stop) := by
  rw [run_of_open hopen, h.clean, fireDue_of_ticks hticks hidle]
  rfl

theorem Steady.ticks_of_run (h : Steady m) (hopen : m.closed = false) (hrun : m.run stop = some n) :
    ∃ s : Machine, Ticks stop m s ∧ s.Idle stop ∧ n = s.expire stop := by
  have hticks := Machine.ticks_of_run hopen hrun
  rwa [h.clean] at hticks

theorem Steady.run (h : Steady m) (hrun : m.run stop = some n) : Steady n := by
  cases hstate : m.closed with
  | true =>
    rw [run_of_closed hstate] at hrun
    cases hrun
    exact h
  | false =>
    obtain ⟨s, hticks, -, rfl⟩ := h.ticks_of_run hstate hrun
    obtain ⟨closed, closedAt, updatedAt, hexpired⟩ := expire_eq s stop
    rw [hexpired]
    have hs := h.ticks hticks
    exact ⟨hs.error, hs.ordered, hs.counted⟩

theorem Steady.ahead (h : Steady m) (hahead : Ahead bound m b) : Steady b := by
  rcases hahead with rfl | ⟨t, -, hrun⟩
  · exact h
  · exact h.run hrun

theorem stamps_of_run (h : Steady m) (hrun : m.run stop = some n) : m.stamps <+: n.stamps := by
  cases hstate : m.closed with
  | true =>
    rw [run_of_closed hstate] at hrun
    cases hrun
    exact List.prefix_rfl
  | false =>
    obtain ⟨s, hticks, -, rfl⟩ := h.ticks_of_run hstate hrun
    rw [stamps_expire]
    exact stamps_of_ticks hticks

/-- An open host that is ahead has used up tasks until nothing was left to do. -/
theorem ticks_of_ahead (h : Steady m) (hahead : Ahead bound m b) (hopen : b.closed = false) :
    b = m ∨ ∃ t, t ≤ bound ∧ m.closed = false ∧ Ticks t m b ∧ b.Idle t ∧ b.expire t = b := by
  rcases hahead with rfl | ⟨t, ht, hrun⟩
  · exact .inl rfl
  cases hstate : m.closed with
  | true =>
    rw [run_of_closed hstate] at hrun
    exact .inl (Option.some.inj hrun).symm
  | false =>
    obtain ⟨s, hticks, hidle, rfl⟩ := h.ticks_of_run hstate hrun
    have hstays := expire_of_open hopen
    rw [hstays]
    exact .inr ⟨t, ht, rfl, hticks, hidle, hstays⟩

/-! ## Trailing -/

/-- The first host is in the state of the second one, but for tasks that this one has passed over:
they were due by the bound, and before any that can still come. -/
def Trails (bound : UInt64) (x y : Machine) : Prop :=
  ∃ passed, x = y.waiting (passed ++ y.tasks) ∧
    ∀ k ∈ passed, k.due ≤ bound ∧ k.due ≤ y.expiresAt ∧
      ∀ t ∈ y.tasks, t.due ≤ y.expiresAt → k.due < t.due

theorem Trails.refl (bound : UInt64) (m : Machine) : Trails bound m m := ⟨[], rfl, nofun⟩

/-- A host that has noted no time on its way is trailed by where it came from. -/
theorem trails_of_ahead (h : Steady m) (hahead : Ahead bound m b) (hopen : b.closed = false)
    (hstamps : b.stamps = m.stamps) : Trails bound m b := by
  rcases ticks_of_ahead h hahead hopen with rfl | ⟨t, ht, -, hticks, hidle, -⟩
  · exact .refl bound b
  rcases ticks_cases hticks with ⟨passed, hsame, hpassed⟩ | ⟨k, -, -, rest, hnoted⟩
  · have hspan : m.expiresAt = b.expiresAt := by
      rw [hsame]
      rfl
    refine ⟨passed, hsame, ?_⟩
    intro k hk
    obtain ⟨hdue, hkspan⟩ := hpassed k hk
    rw [hspan] at hkspan
    refine ⟨UInt64.le_trans hdue ht, hkspan, ?_⟩
    intro task htask htspan
    -- the first task left is due later than the clock has come, and the others after it
    have hordered := (h.ticks hticks).ordered
    rcases hidle with hclosed | hhead
    · rw [hopen] at hclosed
      cases hclosed
    cases htasks : b.tasks with
    | nil =>
      rw [htasks] at htask
      cases htask
    | cons first r =>
      rw [htasks] at htask hordered hhead
      have hfirst : first.due ≤ task.due := by
        rcases List.mem_cons.1 htask with rfl | hmem
        · exact UInt64.le_refl _
        · exact (List.pairwise_cons.1 hordered).1 task hmem
      have hwaits := hhead first rfl
      have hlate : ¬ first.due ≤ t := fun hle => hwaits ⟨hle, UInt64.le_trans hfirst htspan⟩
      exact UInt64.lt_of_le_of_lt hdue (UInt64.lt_of_lt_of_le (UInt64.not_le.1 hlate) hfirst)
  · rw [hstamps] at hnoted
    have hlength := congrArg List.length hnoted
    simp at hlength

/-- A host that trails keeps trailing when both commit the same witness. -/
theorem Trails.commits (h : Trails bound x y) (hx : x.Commits w s₁) (hy : y.Commits w s₂) :
    Trails bound s₁ s₂ := by
  obtain ⟨passed, rfl, hpassed⟩ := h
  have hsame := commits_waiting hy hx
  have htasks : s₂.tasks = y.tasks := tasks_of_outcome (outcome_of_eval hy.1)
  have hspan : s₂.expiresAt = y.expiresAt :=
    congrArg (fun f => f.2.2.2.1) (fixed_of_outcome (outcome_of_eval hy.1))
  refine ⟨passed, ?_, ?_⟩
  · rw [htasks]
    exact hsame
  · rw [htasks, hspan]
    exact hpassed

/-- A task passed over by the host ahead acts at no host that notes the same times: the host ahead
can only note later ones. -/
theorem not_noted (hy : Steady y) (hahead : Ahead bound y b) (hopen : y.closed = false)
    (hpassed : ∀ k ∈ passed, ∀ t ∈ y.tasks, t.due ≤ y.expiresAt → k.due < t.due) :
    ¬∃ k ∈ passed, ∃ rest, b.stamps = y.stamps ++ k.due :: rest := by
  rintro ⟨k, hk, rest, hnoted⟩
  have hnone : b.stamps ≠ y.stamps := by
    intro heq
    have hlength := congrArg List.length (heq.symm.trans hnoted)
    simp at hlength
  rcases hahead with rfl | ⟨t, -, hrun⟩
  · exact hnone rfl
  obtain ⟨s, hticks, -, rfl⟩ := hy.ticks_of_run hopen hrun
  rw [stamps_expire] at hnoted hnone
  rcases ticks_cases hticks with ⟨passed', hsame, -⟩ | ⟨task, htask, hspan, rest', hacted⟩
  · apply hnone
    rw [hsame]
    rfl
  · -- both logs go on with the same time, and that of the host ahead is later
    have heads := List.append_cancel_left (hnoted.symm.trans hacted)
    have hdue : k.due = task.due := (List.cons.inj heads).1
    have hlt := hpassed k hk task htask hspan
    rw [hdue] at hlt
    exact UInt64.lt_irrefl _ hlt

/-- Two hosts that trail each other do so still when both have advanced their clocks and noted the
same times. -/
theorem Trails.meet (h : Trails bound x y) (hx : Steady x) (hy : Steady y)
    (hahead₁ : Ahead bound x b₁) (hahead₂ : Ahead bound y b₂) (hopen₁ : b₁.closed = false)
    (hopen₂ : b₂.closed = false) (hstamps : b₁.stamps = b₂.stamps) :
    Trails bound b₁ b₂ ∨ Trails bound b₂ b₁ := by
  have hsteady₁ := hx.ahead hahead₁
  have hsteady₂ := hy.ahead hahead₂
  obtain ⟨passed, rfl, hpassed⟩ := h
  have hstops : (∃ left, left <:+ passed ∧ b₁ = y.waiting (left ++ y.tasks)) ∨
      Ahead bound y b₁ := by
    rcases ticks_of_ahead hx hahead₁ hopen₁ with rfl | ⟨t, ht, hopen, hticks, hidle, hstays⟩
    · exact .inl ⟨passed, List.suffix_rfl, rfl⟩
    · rcases ticks_waiting_cases hticks with hleft | hpast | hnoted
      · exact .inl hleft
      · have hrun := run_of_ticks hy hopen hpast hidle
        rw [hstays] at hrun
        exact .inr (.inr ⟨t, ht, hrun⟩)
      · rw [hstamps] at hnoted
        exact absurd hnoted (not_noted hy hahead₂ hopen fun k hk => (hpassed k hk).2.2)
  rcases hstops with ⟨left, hleft, rfl⟩ | hahead
  · -- the first host has stopped among the tasks passed over, and the second one noted no time
    obtain ⟨passed', hsame, hpassed'⟩ := trails_of_ahead hy hahead₂ hopen₂ hstamps.symm
    have htasks : y.tasks = passed' ++ b₂.tasks := congrArg tasks hsame
    have hspan : y.expiresAt = b₂.expiresAt := by
      rw [hsame]
      rfl
    left
    refine ⟨left ++ passed', ?_, ?_⟩
    · have hback := congrArg (fun s : Machine => s.waiting (left ++ y.tasks)) hsame
      rw [List.append_assoc, ← htasks]
      exact hback
    · intro k hk
      rcases List.mem_append.1 hk with hk | hk
      · obtain ⟨hdue, hkspan, hbefore⟩ := hpassed k (hleft.subset hk)
        refine ⟨hdue, hspan ▸ hkspan, fun t ht htspan => hbefore t ?_ (hspan ▸ htspan)⟩
        rw [htasks]
        exact List.mem_append_right passed' ht
      · exact hpassed' k hk
  · -- both hosts have come from the same state, so one of them is ahead of the other
    rcases ahead_total hahead hahead₂ with hahead | hahead
    · exact .inl (trails_of_ahead hsteady₁ hahead hopen₂ hstamps.symm)
    · exact .inr (trails_of_ahead hsteady₂ hahead hopen₁ hstamps)

/-- Two hosts that trail each other end in the same state when their logs note the same times and the
same tasks are left. -/
theorem Trails.eq_of_run (h : Trails stop x y) (hx : Steady x) (hy : Steady y)
    (hrun₁ : x.run stop = some m) (hrun₂ : y.run stop = some n) (hstamps : m.stamps = n.stamps)
    (htasks : m.tasks = n.tasks) : m = n := by
  obtain ⟨passed, rfl, hpassed⟩ := h
  cases hstate : y.closed with
  | true =>
    -- closed hosts stay as they are, and they only differed in waiting tasks
    have hclosed : (y.waiting (passed ++ y.tasks)).closed = true := hstate
    rw [run_of_closed hclosed] at hrun₁
    rw [run_of_closed hstate] at hrun₂
    have hm := Option.some.inj hrun₁
    have hn := Option.some.inj hrun₂
    rw [← hm, ← hn] at htasks ⊢
    exact congrArg (fun tasks => y.waiting tasks) htasks
  | false =>
    have hopen : (y.waiting (passed ++ y.tasks)).closed = false := hstate
    obtain ⟨s, hticks, hidle, rfl⟩ := hx.ticks_of_run hopen hrun₁
    have hpast : Ticks stop y s := by
      rcases ticks_waiting_cases hticks with ⟨left, hleft, rfl⟩ | hpast | hnoted
      · -- nothing that was passed over can be left, since all of it is due
        cases left with
        | nil => exact .refl
        | cons k r =>
          obtain ⟨hdue, hspan, -⟩ := hpassed k (hleft.subset List.mem_cons_self)
          rcases hidle with hclosed | hhead
          · exact absurd (hstate.symm.trans hclosed) (by decide)
          · exact absurd ⟨hdue, hspan⟩ (hhead k rfl)
      · exact hpast
      · rw [← stamps_expire s stop, hstamps] at hnoted
        have hahead : Ahead stop y n := .inr ⟨stop, UInt64.le_refl stop, hrun₂⟩
        exact absurd hnoted (not_noted hy hahead hstate fun k hk => (hpassed k hk).2.2)
    rw [run_of_ticks hy hstate hpast hidle] at hrun₂
    exact Option.some.inj hrun₂

/-! ## Whole courses -/

theorem due_le_trans (a b c : Task) (hab : decide (a.due ≤ b.due) = true)
    (hbc : decide (b.due ≤ c.due) = true) : decide (a.due ≤ c.due) = true := by
  rw [decide_eq_true_eq] at hab hbc ⊢
  exact UInt64.le_trans hab hbc

theorem due_le_total (a b : Task) : (decide (a.due ≤ b.due) || decide (b.due ≤ a.due)) = true := by
  rw [Bool.or_eq_true, decide_eq_true_eq, decide_eq_true_eq]
  exact UInt64.le_total a.due b.due

theorem ordered_tasks (c : MachineConfig) : c.tasks.Pairwise fun a b => a.due ≤ b.due :=
  (List.pairwise_mergeSort due_le_trans due_le_total _).imp of_decide_eq_true

theorem steady_of_init {c : MachineConfig} (hinit : init c = .ok m) : Steady m := by
  obtain ⟨paths, -, -, rfl⟩ := init_eq_ok hinit
  exact ⟨rfl, ordered_tasks c, rfl⟩

theorem stamps_of_course {limit : List Witness → UInt64} {ws : List Witness} {ms : List Machine}
    (h : Steady m) (hcourse : Course limit m ws ms n) : m.stamps <+: n.stamps := by
  induction hcourse with
  | done hrun => exact stamps_of_run h hrun
  | clock ht hrun rest ih => exact (stamps_of_run h hrun).trans (ih (h.run hrun))
  | @witness m s n w ws ms hcommits rest ih =>
    refine List.IsPrefix.trans ⟨[w.stamp], ?_⟩ (ih (h.commits hcommits))
    unfold stamps
    rw [hcommits.2, List.map_append]
    rfl

/-- Hosts that trail each other and whose logs note the same times in the end differ in waiting tasks
at most. -/
theorem eq_of_stamps {ws : List Witness} {ms₁ ms₂ : List Machine}
    (h : Trails stop x y ∨ Trails stop y x) (hx : Steady x) (hy : Steady y)
    (h₁ : Course (fun _ => stop) x ws ms₁ m) (h₂ : Course (fun _ => stop) y ws ms₂ n)
    (hstamps : m.stamps = n.stamps) (htasks : m.tasks = n.tasks) : m = n := by
  induction ws generalizing x y ms₁ ms₂ with
  | nil =>
    obtain ⟨-, hrun₁⟩ := h₁.last
    obtain ⟨-, hrun₂⟩ := h₂.last
    rcases h with h | h
    · exact h.eq_of_run hx hy hrun₁ hrun₂ hstamps htasks
    · exact (h.eq_of_run hy hx hrun₂ hrun₁ hstamps.symm htasks.symm).symm
  | cons w ws ih =>
    obtain ⟨b₁, s₁, r₁, hahead₁, hcommits₁, -, hrest₁⟩ := h₁.first
    obtain ⟨b₂, s₂, r₂, hahead₂, hcommits₂, -, hrest₂⟩ := h₂.first
    have hb₁ := hx.ahead hahead₁
    have hb₂ := hy.ahead hahead₂
    obtain ⟨hopen₁, -, current₁, goal₁, keys₁, hadmitted₁⟩ := hcommits₁.accepted
    obtain ⟨hopen₂, -, current₂, goal₂, keys₂, hadmitted₂⟩ := hcommits₂.accepted
    -- the witness is built for one step, so both logs are of one length when it comes
    have hlength : b₁.stamps.length = b₂.stamps.length := by
      unfold stamps
      rw [List.length_map, List.length_map, hb₁.counted, hb₂.counted, ← hadmitted₁.step,
        ← hadmitted₂.step]
    have hmeets : b₁.stamps = b₂.stamps := by
      have hprefix₁ := stamps_of_course hb₁ (.witness hcommits₁ hrest₁)
      have hprefix₂ := stamps_of_course hb₂ (.witness hcommits₂ hrest₂)
      rw [hstamps] at hprefix₁
      exact (List.prefix_of_prefix_length_le hprefix₁ hprefix₂ hlength.le).eq_of_length hlength
    have hmeet : Trails stop b₁ b₂ ∨ Trails stop b₂ b₁ := by
      rcases h with h | h
      · exact h.meet hx hy hahead₁ hahead₂ hopen₁ hopen₂ hmeets
      · exact (h.meet hy hx hahead₂ hahead₁ hopen₂ hopen₁ hmeets.symm).symm
    have hnext : Trails stop s₁ s₂ ∨ Trails stop s₂ s₁ :=
      hmeet.imp (fun h => h.commits hcommits₁ hcommits₂) (fun h => h.commits hcommits₂ hcommits₁)
    exact ih hnext (hb₁.commits hcommits₁) (hb₂.commits hcommits₂) hrest₁ hrest₂

end JointEscrow.Machine
