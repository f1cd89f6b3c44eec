import JointEscrow.Proofs.Machine.Authorization
import JointEscrow.Proofs.Machine.Lag

/-!
# Hosts that advance their clocks at different moments

Two hosts commit the same witnesses and run to the same time, but each advances its clock in between
as it likes. A task that fires shows in the log and in the time of the last update; a task that is
used up without effect shows in the waiting tasks only, where no later witness meets it. So the
hosts can part, as `lockedDeposit_hosts_part` shows. `hosts_agree_iff` says when they do not: when
the same tasks wait before every witness, or else when no task acts at one of them that the other
one has passed over. Punctual hosts, whose clocks never overtake the next witness, always agree
(`punctual_hosts_agree`).
-/

namespace JointEscrow.Machine

variable {m n n₁ n₂ b b₁ b₂ : Machine} {limit : List Witness → UInt64}
  {stop bound t : UInt64} {w : Witness} {ws : List Witness} {ms ms₁ ms₂ : List Machine}

/-- The clock of a punctual host: never beyond the stamp of the next witness. -/
def untilNext (stop : UInt64) : List Witness → UInt64
  | [] => stop
  | w :: _ => w.stamp

/-! ## Between two witnesses -/

/-- The clock changes nothing where it uses up no task and does not close the machine. -/
theorem eq_of_ahead (h : Steady m) (hahead : Ahead bound m b) (hopen : b.closed = false)
    (htasks : b.tasks = m.tasks) : b = m := by
  rcases ticks_of_ahead h hahead hopen with heq | ⟨t, -, -, hticks, -, -⟩
  · exact heq
  rcases hticks.cases_head with heq | ⟨a, htick, hrest⟩
  · exact heq.symm
  · -- a first tick would have left fewer tasks
    obtain ⟨first, hfirst⟩ := tasks_of_tick htick
    have hlength := (tasks_suffix_of_moves (moves_of_ticks hrest)).length_le
    rw [htasks, hfirst, List.length_cons] at hlength
    omega

/-- Open hosts between the same two witnesses are in the same state when the same tasks wait. -/
theorem eq_of_tasks (h : Steady m) (h₁ : Ahead bound m b₁) (h₂ : Ahead bound m b₂)
    (hopen₁ : b₁.closed = false) (hopen₂ : b₂.closed = false) (htasks : b₁.tasks = b₂.tasks) :
    b₁ = b₂ := by
  rcases ahead_total h₁ h₂ with hahead | hahead
  · exact (eq_of_ahead (h.ahead h₁) hahead hopen₂ htasks.symm).symm
  · exact eq_of_ahead (h.ahead h₂) hahead hopen₁ htasks

/-- A machine that admits a witness has nothing to do up to the stamp of it. -/
theorem run_of_commits (h : Steady m) (hcommits : m.Commits w n) (ht : t ≤ w.stamp) :
    m.run t = some m := by
  obtain ⟨hopen, -, current, goal, keys, hadmitted⟩ := hcommits.accepted
  -- the gates that the witness has passed say that nothing is due and nothing over
  have hidle : m.Idle t := by
    right
    intro task htask hdue
    have hlater := hadmitted.beforeTasks task htask
    exact UInt64.lt_irrefl _ (UInt64.lt_of_lt_of_le hlater (UInt64.le_trans hdue.1 ht))
  have hstays : ¬ (m.closed = false ∧ m.expiresAt ≤ t) := by
    rintro ⟨-, hover⟩
    exact UInt64.lt_irrefl _
      (UInt64.lt_of_lt_of_le hadmitted.notLate (UInt64.le_trans hover ht))
  rw [run_of_ticks h hopen .refl hidle]
  exact congrArg some (if_neg hstays)

/-- Punctual hosts meet a witness in the same state. -/
theorem eq_of_punctual {s₁ s₂ : Machine} (h : Steady m) (h₁ : Ahead w.stamp m b₁)
    (h₂ : Ahead w.stamp m b₂) (hcommits₁ : b₁.Commits w s₁) (hcommits₂ : b₂.Commits w s₂) :
    b₁ = b₂ := by
  rcases ahead_total h₁ h₂ with hahead | hahead
  · rcases hahead with rfl | ⟨t, ht, hrun⟩
    · rfl
    · rw [run_of_commits (h.ahead h₁) hcommits₁ ht] at hrun
      exact Option.some.inj hrun
  · rcases hahead with rfl | ⟨t, ht, hrun⟩
    · rfl
    · rw [run_of_commits (h.ahead h₂) hcommits₂ ht] at hrun
      exact (Option.some.inj hrun).symm

/-! ## Whole courses -/

/-- Courses are the same where two hosts that agree in some respect always meet a witness in the same
state. -/
theorem eq_of_courses {α : Type} {f : Machine → α}
    (hmeet : ∀ m b₁ b₂ s₁ s₂ w ws, Steady m → Ahead (limit (w :: ws)) m b₁ →
      Ahead (limit (w :: ws)) m b₂ → b₁.Commits w s₁ → b₂.Commits w s₂ → f b₁ = f b₂ →
        b₁ = b₂)
    (h : Steady m) (h₁ : Course limit m ws ms₁ n₁) (h₂ : Course limit m ws ms₂ n₂)
    (hview : ms₁.map f = ms₂.map f) : ms₁ = ms₂ ∧ n₁ = n₂ := by
  induction ws generalizing m ms₁ ms₂ with
  | nil =>
    obtain ⟨rfl, hrun₁⟩ := h₁.last
    obtain ⟨rfl, hrun₂⟩ := h₂.last
    exact ⟨rfl, Option.some.inj (hrun₁.symm.trans hrun₂)⟩
  | cons w ws ih =>
    obtain ⟨b₁, s₁, r₁, hahead₁, hcommits₁, rfl, hrest₁⟩ := h₁.first
    obtain ⟨b₂, s₂, r₂, hahead₂, hcommits₂, rfl, hrest₂⟩ := h₂.first
    rw [List.map_cons, List.map_cons, List.cons.injEq] at hview
    have hsame := hmeet m b₁ b₂ s₁ s₂ w ws h hahead₁ hahead₂ hcommits₁ hcommits₂ hview.1
    subst hsame
    have hnext : s₁ = s₂ := Option.some.inj (hcommits₁.1.symm.trans hcommits₂.1)
    subst hnext
    obtain ⟨hms, hn⟩ := ih ((h.ahead hahead₁).commits hcommits₁) hrest₁ hrest₂ hview.2
    exact ⟨congrArg (b₁ :: ·) hms, hn⟩

/-- Two hosts that commit the same witnesses and run to the same time end in the same state exactly
when their logs note the same times and the same tasks are left. They go through the same states on
the way exactly when the same tasks wait before every witness. -/
theorem hosts_agree_iff {c : MachineConfig} (hinit : init c = .ok m)
    (h₁ : Course (fun _ => stop) m ws ms₁ n₁) (h₂ : Course (fun _ => stop) m ws ms₂ n₂) :
    (n₁ = n₂ ↔ n₁.stamps = n₂.stamps ∧ n₁.tasks = n₂.tasks) ∧
      ((ms₁ = ms₂ ∧ n₁ = n₂) ↔ ms₁.map tasks = ms₂.map tasks) := by
  have hsteady := steady_of_init hinit
  constructor
  · constructor
    · rintro rfl
      exact ⟨rfl, rfl⟩
    · rintro ⟨hstamps, htasks⟩
      exact eq_of_stamps (.inl (.refl stop m)) hsteady hsteady h₁ h₂ hstamps htasks
  · constructor
    · rintro ⟨rfl, -⟩
      rfl
    · apply eq_of_courses _ hsteady h₁ h₂
      intro m b₁ b₂ s₁ s₂ w ws hm hahead₁ hahead₂ hcommits₁ hcommits₂ htasks
      exact eq_of_tasks hm hahead₁ hahead₂ hcommits₁.accepted.1 hcommits₂.accepted.1 htasks

/-- Two punctual hosts that commit the same witnesses and run to the same time go through the same
states. -/
theorem punctual_hosts_agree {c : MachineConfig} (hinit : init c = .ok m)
    (h₁ : Course (untilNext stop) m ws ms₁ n₁) (h₂ : Course (untilNext stop) m ws ms₂ n₂) :
    ms₁ = ms₂ ∧ n₁ = n₂ := by
  have hlength : ms₁.length = ms₂.length := h₁.length_eq.trans h₂.length_eq.symm
  refine eq_of_courses (f := fun _ => ()) ?_ (steady_of_init hinit) h₁ h₂ ?_
  · intro m b₁ b₂ s₁ s₂ w ws hm hahead₁ hahead₂ hcommits₁ hcommits₂ _
    exact eq_of_punctual hm hahead₁ hahead₂ hcommits₁ hcommits₂
  · rw [List.map_const', List.map_const', hlength]

/-! ### A lock that outlasts a task -/

/-- A deposit that is locked at 560 and closed at 600. Its buyer can release it in between. -/
def lockedDeposit : MachineConfig where
  vmid := .zero
  activeAt := 500
  expiresAt := 1500
  engine := engineLabel
  pathnames := ["deposit"]
  programs := [⟨.endorse, .tokens ["release"], .tokens ["deposit"], 1, [buyerKey]⟩]
  schedule := [⟨60, .lock, .any⟩, ⟨100, .close, .any⟩]

theorem lockedDeposit_tasks :
    lockedDeposit.tasks = [⟨560, .lock, .any⟩, ⟨600, .close, .any⟩] :=
  List.mergeSort_of_pairwise (by decide)

/-- The deposit's machine at its start. -/
def lockedStart : Machine where
  vmid := .zero
  engine := engineLabel
  activeAt := 500
  expiresAt := 1500
  updatedAt := 500
  head := lockedDeposit.genesis
  step := 0
  paths := SortedMap.empty.insert "deposit" .open
  programs := lockedDeposit.programs.map .ofTerms
  store := .empty
  commits := []
  tasks := [⟨560, .lock, .any⟩, ⟨600, .close, .any⟩]
  output := none
  error := none
  closed := false
  closedAt := none

theorem init_lockedDeposit : init lockedDeposit = .ok lockedStart := by
  have hsome : (init lockedDeposit).toOption.isSome = true := by decide +kernel
  obtain ⟨m, hm⟩ := Option.isSome_iff_exists.1 hsome
  obtain ⟨paths, hpaths, -, rfl⟩ := init_eq_ok (toOption_eq_some_iff.1 hm)
  rw [toOption_eq_some_iff.1 hm, lockedDeposit_tasks]
  cases hpaths
  rfl

/-- The buyer's word on the lock, given at 580. -/
def releaseWitness : Witness where
  vmid := .zero
  method := .endorse
  action := .release
  path := "deposit"
  stamp := 580
  step := 1
  endorsements := [⟨buyerKey, ⟨takeBytes 64
    (bigEndian 32 0x11f3f8c124192cb6c612021eeae552913cd8a1a45c3af992f2a1bb02fb92c1dd ++
      bigEndian 32 0xe21fce99afe9f265d0e1a0a6d9f54b3557d0f11497d9f1a9a02620498efaaa05)⟩⟩]

/-- The machine of a host at some time when the release comes, after it, and at 600. -/
def releaseRun (t : UInt64) : Option (Machine × Machine × Machine) := do
  let before ← lockedStart.run t
  let after ← before.eval releaseWitness
  let last ← after.run 600
  return (before, after, last)

/-- Some tasks wait when the release comes, it is committed, and it leaves the deposit in a state
at 600. -/
def releaseEnds (t : UInt64) (waiting : List Task) (state : PathState) : Bool :=
  (releaseRun t).any fun (before, after, last) =>
    decide (before.tasks = waiting) && decide (after.step ≠ before.step) &&
      decide (last.pathState? "deposit" = some state)

theorem course_of_releaseEnds {waiting : List Task} {state : PathState}
    (h : releaseEnds t waiting state = true) (ht : t ≤ 600) :
    ∃ b n, Course (fun _ => 600) lockedStart [releaseWitness] [b] n ∧ b.tasks = waiting ∧
      n.pathState? "deposit" = some state := by
  obtain ⟨⟨before, after, last⟩, hrun, hends⟩ := Option.any_eq_true _ _ |>.1 h
  simp only [releaseRun, Option.bind_eq_bind, Option.bind_eq_some_iff, Option.pure_def,
    Option.some.injEq, Prod.mk.injEq] at hrun
  obtain ⟨_, hbefore, _, hafter, _, hlast, rfl, rfl, rfl⟩ := hrun
  simp only [Bool.and_eq_true, decide_eq_true_eq] at hends
  obtain ⟨⟨hwaiting, hstep⟩, hstate⟩ := hends
  have hcommits := commits_of_step_ne hafter hstep
  exact ⟨_, _, .clock ht hbefore (.witness hcommits (.done hlast)), hwaiting, hstate⟩

/-- A host at 560 or 575 when the release comes closes the deposit afterwards. A host at 600 has
used up the closing task on the locked deposit and leaves it open. -/
theorem lockedStart_ends :
    (releaseEnds 560 [⟨600, .close, .any⟩] .closed &&
      releaseEnds 575 [⟨600, .close, .any⟩] .closed && releaseEnds 600 [] .open) = true := by
  decide +kernel

/-- Hosts that commit the same witnesses and run to the same time can end in different states. -/
theorem lockedDeposit_hosts_part :
    ∃ m ws ms₁ n₁ ms₂ n₂, init lockedDeposit = .ok m ∧ Course (fun _ => 600) m ws ms₁ n₁ ∧
      Course (fun _ => 600) m ws ms₂ n₂ ∧ n₁.pathState? "deposit" = some .open ∧
        n₂.pathState? "deposit" = some .closed := by
  have hends := lockedStart_ends
  simp only [Bool.and_eq_true] at hends
  obtain ⟨b₂, n₂, hcourse₂, -, hclosed⟩ := course_of_releaseEnds hends.1.1 (by decide)
  obtain ⟨b₁, n₁, hcourse₁, -, hopen⟩ := course_of_releaseEnds hends.2 (by decide)
  exact ⟨_, _, _, n₁, _, n₂, init_lockedDeposit, hcourse₁, hcourse₂, hopen, hclosed⟩

/-- Hosts that are at 560 and at 575 when the release comes end in the same state. -/
theorem lockedDeposit_hosts_agree :
    ∃ m ws ms₁ n₁ ms₂ n₂, init lockedDeposit = .ok m ∧ Course (fun _ => 600) m ws ms₁ n₁ ∧
      Course (fun _ => 600) m ws ms₂ n₂ ∧ n₁.pathState? "deposit" = some .closed ∧ n₁ = n₂ := by
  have hends := lockedStart_ends
  simp only [Bool.and_eq_true] at hends
  obtain ⟨b₁, n₁, hcourse₁, htasks₁, hclosed⟩ := course_of_releaseEnds hends.1.1 (by decide)
  obtain ⟨b₂, n₂, hcourse₂, htasks₂, -⟩ := course_of_releaseEnds hends.1.2 (by decide)
  have htasks : [b₁].map tasks = [b₂].map tasks := by
    rw [List.map_singleton, List.map_singleton, htasks₁, htasks₂]
  have hsame := (hosts_agree_iff init_lockedDeposit hcourse₁ hcourse₂).2.2 htasks
  exact ⟨_, _, _, n₁, _, n₂, init_lockedDeposit, hcourse₁, hcourse₂, hclosed, hsame.2⟩

end JointEscrow.Machine
