import JointEscrow.Proofs.Bytes.Order
import JointEscrow.Proofs.Machine.Acceptance
import JointEscrow.Proofs.Machine.Timeline
import Mathlib.Data.List.Permutation

/-!
# The schedule and the clock

A machine starts with its schedule in the order of the absolute times, and what is due at one time
stands in the order that it was declared in (`scheduled_tasks`). A run of the clock takes the tasks
that are due from the front. Each meets the machine that the ones before it have left: `Consumes`
says what becomes of one task, `Consumption` of a row of them, and `Lapse` of a whole run, up to the
end of the machine's time (`schedule_is_kept`).
-/

namespace JointEscrow

/-! ## The tasks in order -/

namespace MachineConfig

variable {c : MachineConfig}

/-- An entry of the schedule at its absolute time. -/
def task (c : MachineConfig) (e : ScheduleEntry) : Task := ⟨c.activeAt + e.stamp, e.action, e.path⟩

/-- The tasks are the schedule at its absolute times. Each of these is the exact sum, they ascend,
and tasks of one time stand in the order of their declaration. -/
structure Scheduled (c : MachineConfig) (tasks : List Task) : Prop where
  sums : ∀ e ∈ c.schedule, (c.task e).due.toNat = c.activeAt.toNat + e.stamp.toNat
  all : tasks.Perm (c.schedule.map c.task)
  ordered : tasks.Pairwise fun a b => a.due ≤ b.due
  ties : ∀ due, tasks.filter (fun t => t.due = due) =
    (c.schedule.map c.task).filter fun t => t.due = due

theorem tasks_perm : c.tasks.Perm (c.schedule.map c.task) := List.mergeSort_perm _ _

/-- Sorting keeps the order of what is due at one time. -/
theorem filter_tasks (due : UInt64) : c.tasks.filter (fun t => t.due = due) =
    (c.schedule.map c.task).filter fun t => t.due = due := by
  have htied : ((c.schedule.map c.task).filter fun t => t.due = due).Pairwise
      fun a b => decide (a.due ≤ b.due) = true := by
    refine List.pairwise_of_forall_mem_list fun a ha b hb => ?_
    rw [List.mem_filter, decide_eq_true_eq] at ha hb
    rw [decide_eq_true_eq, ha.2, hb.2]
    exact UInt64.le_refl due
  have hsorted : ((c.schedule.map c.task).filter fun t => t.due = due).Sublist c.tasks :=
    List.sublist_mergeSort Machine.due_le_trans Machine.due_le_total htied List.filter_sublist
  have hkept := hsorted.filter fun t => t.due = due
  rw [List.filter_filter, List.filter_congr (fun _ _ => Bool.and_self _)] at hkept
  exact (hkept.eq_of_length (tasks_perm.filter _).length_eq.symm).symm

theorem scheduled_tasks (h : c.Startable) : c.Scheduled c.tasks :=
  ⟨fun _ he => (h.due_of_mem he).1, tasks_perm, Machine.ordered_tasks c, filter_tasks⟩

end MachineConfig

/-- Only a close leads from an open path to a closed one. -/
theorem PathState.eq_close_of_next? {action : Action}
    (h : PathState.open.next? action = some .closed) : action = .close := by
  cases action <;> cases h
  rfl

namespace Machine

variable {m m₀ n s : Machine} {c : MachineConfig} {t : Task} {label : String} {goal : PathState}
  {stop : UInt64}

/-! ## The path that a task acts on -/

/-- A path that a task may act on, and the state that it would move to. The pattern matches the
path, the path is open and admits the action, and no dispute on another path keeps the action back.
-/
structure Eligible (m : Machine) (t : Task) (label : String) (goal : PathState) : Prop where
  matched : t.path.admits label = true
  state : m.pathState? label = some .open
  admits : PathState.open.next? t.action = some goal
  uncontested : t.action = .close ∨ t.action = .dispute →
    ∀ l, l ≠ label → m.pathState? l ≠ some .disputed

/-- A task acts on the first eligible path, in the order of the bytes of the labels. -/
structure Aims (m : Machine) (t : Task) (label : String) (goal : PathState) : Prop
    extends Eligible m t label goal where
  least : ∀ l g, m.Eligible t l g → utf8 label ≤ utf8 l

theorem taskTarget?_of_eligible (h : m.Eligible t label goal) :
    m.taskTarget? t label .open = some goal := by
  have hfree := contestedBy?_eq_none_iff.2 h.uncontested
  unfold taskTarget?
  rw [if_pos ⟨h.matched, rfl, hfree⟩]
  exact h.admits

theorem target?_eq_none_iff : m.target? t = none ↔ ∀ l g, ¬ m.Eligible t l g := by
  constructor
  · intro hnone l g h
    have hskipped : (m.taskTarget? t l .open).map (fun goal => (l, goal)) = none :=
      List.findSome?_eq_none_iff.1 hnone (l, .open) (SortedMap.mem_entries_iff.2 h.state)
    rw [taskTarget?_of_eligible h] at hskipped
    cases hskipped
  · intro hnone
    cases htarget : m.target? t with
    | none => rfl
    | some r =>
      obtain ⟨label, goal⟩ := r
      obtain ⟨hmatched, hstate, hadmits, hfree⟩ := target?_spec htarget
      exact absurd ⟨hmatched, hstate, hadmits, contestedBy?_eq_none_iff.1 hfree⟩ (hnone label goal)

theorem aims_of_target? (htarget : m.target? t = some (label, goal)) : m.Aims t label goal := by
  obtain ⟨hmatched, hstate, hadmits, hfree⟩ := target?_spec htarget
  refine ⟨⟨hmatched, hstate, hadmits, contestedBy?_eq_none_iff.1 hfree⟩, ?_⟩
  intro l g hl hlt
  rw [utf8_lt_iff] at hlt
  -- the search goes through the labels in order, so a smaller one would have been found before
  obtain ⟨before, e, after, hentries, he, hbefore⟩ := List.findSome?_eq_some_iff.1 htarget
  have hlabel : e.1 = label := by
    obtain ⟨g', -, heq⟩ := Option.map_eq_some_iff.1 he
    exact congrArg Prod.fst heq
  have hsorted := m.paths.sorted
  rw [hentries, List.pairwise_append, List.pairwise_cons] at hsorted
  have hmem : (l, PathState.open) ∈ before ++ e :: after :=
    hentries ▸ SortedMap.mem_entries_iff.2 hl.state
  rcases List.mem_append.1 hmem with hl' | hl'
  · have hskipped : (m.taskTarget? t l .open).map (fun goal => (l, goal)) = none := hbefore _ hl'
    rw [taskTarget?_of_eligible hl] at hskipped
    cases hskipped
  · rcases List.mem_cons.1 hl' with rfl | hl'
    · exact KeyOrder.irrefl _ (hlabel ▸ hlt)
    · exact KeyOrder.irrefl _ (KeyOrder.trans _ _ _ (hlabel ▸ hsorted.2.1.1 _ hl') hlt)

/-! ## One task after the other -/

/-- What becomes of a machine when the first waiting task is taken. Without an eligible path nothing
changes but the waiting tasks. Otherwise the one path that the task aims at moves, its pending
endorsements are gone, and the log has one link more, noted at the time that the task was due. A
path that closes ends the machine. -/
inductive Consumes (m : Machine) (t : Task) : Machine → Prop where
  | passed (hnone : ∀ label goal, ¬ m.Eligible t label goal) :
      Consumes m t { m with tasks := m.tasks.tail }
  | moved {label : String} {goal : PathState} {step : UInt64} (haims : m.Aims t label goal)
      (hstep : m.step.toNat + 1 = step.toNat) (hgoes : goal ≠ .closed) :
      Consumes m t { m.linked (m.firing t label).id t.due step with
        tasks := m.tasks.tail
        paths := m.paths.insert label goal
        store := m.store.erase label }
  | ended {label : String} {step : UInt64} (haims : m.Aims t label .closed)
      (hstep : m.step.toNat + 1 = step.toNat) :
      Consumes m t { m.linked (m.firing t label).id t.due step with
        tasks := m.tasks.tail
        paths := m.paths.insert label .closed
        store := m.store.erase label
        output := some label
        closed := true
        closedAt := some t.due }

/-- A row of tasks is taken from the front: each meets the open machine that the one before it has
left. -/
inductive Consumption : Machine → List Task → Machine → Prop where
  | done (m : Machine) : Consumption m [] m
  | next {m s n : Machine} {t : Task} {r : List Task} (hopen : m.closed = false)
      (hfirst : m.tasks.head? = some t) (hone : m.Consumes t s) (hrest : Consumption s r n) :
      Consumption m (t :: r) n

/-- A path that a task closes always ends the machine, since a dispute would have kept it back. -/
theorem Eligible.closesAt_eq (h : m.Eligible t label goal) :
    m.closesAt label goal = decide (goal = .closed) := by
  by_cases hgoal : goal = .closed
  · subst hgoal
    exact closesAt_iff.2 ⟨rfl, h.uncontested (.inl (PathState.eq_close_of_next? h.admits))⟩
  · rw [decide_eq_false hgoal, Bool.eq_false_iff]
    exact fun hcloses => hgoal (closesAt_iff.1 hcloses).1

theorem consumes_of_tick (h : Tick stop m n) :
    ∃ t, m.tasks = t :: n.tasks ∧ t.due ≤ stop ∧ m.closed = false ∧ m.Consumes t n := by
  cases h with
  | @skipped t r hopen htasks hdue hspan htarget =>
    refine ⟨t, htasks, hdue, hopen, ?_⟩
    have hpassed := Consumes.passed (target?_eq_none_iff.1 htarget)
    rwa [htasks] at hpassed
  | @fired t r label goal step hopen htasks hdue hspan htarget hstep =>
    have haims := aims_of_target? htarget
    have hcloses : (m.linked (m.firing t label).id t.due step).closesAt label goal =
        decide (goal = .closed) := haims.closesAt_eq
    have hopen' : (m.linked (m.firing t label).id t.due step).closed = false := hopen
    refine ⟨t, htasks, hdue, hopen, ?_⟩
    rw [settle_eq, hcloses, hopen']
    by_cases hgoal : goal = .closed
    · subst hgoal
      have hended := Consumes.ended haims hstep
      rwa [htasks] at hended
    · have hmoved := Consumes.moved haims hstep hgoal
      rw [htasks] at hmoved
      simp only [decide_eq_false hgoal, Bool.false_eq_true, if_false, Bool.or_self]
      rw [← hopen]
      exact hmoved

theorem consumption_of_ticks (h : Ticks stop m n) :
    ∃ consumed, Consumption m consumed n ∧ m.tasks = consumed ++ n.tasks ∧
      ∀ t ∈ consumed, t.due ≤ stop := by
  induction h using Relation.ReflTransGen.head_induction_on with
  | refl => exact ⟨[], .done n, rfl, nofun⟩
  | head htick _ ih =>
    obtain ⟨t, htasks, hdue, hopen, hone⟩ := consumes_of_tick htick
    obtain ⟨r, hrest, hleft, hlater⟩ := ih
    refine ⟨t :: r, .next hopen (by rw [htasks]; rfl) hone hrest, ?_, ?_⟩
    · rw [htasks, hleft]
      rfl
    · exact List.forall_mem_cons.2 ⟨hdue, hlater⟩

/-! ## A run of the clock -/

/-- A run of the clock brings an open machine to `s` by taking tasks, and then to `n`. The tasks are
those that are due, in order, and some are left only if one of them has closed the machine. Before
the end of the machine's time, or when a task has closed it, that is all. Otherwise everything that
waited has been taken, whatever was due at the very end included, and then the time is over. -/
structure Lapse (m : Machine) (stop : UInt64) (consumed : List Task) (s n : Machine) : Prop where
  consumption : Consumption { m with error := none } consumed s
  front : m.tasks = consumed ++ n.tasks
  due : ∀ t ∈ consumed, t.due ≤ stop
  complete : s.closed = false → consumed = m.tasks.filter fun t => t.due ≤ stop
  before : s.closed = true ∨ stop < m.expiresAt → n = s
  after : s.closed = false → m.expiresAt ≤ stop →
    consumed = m.tasks ∧
      n = { s with closed := true, closedAt := some m.expiresAt, updatedAt := m.expiresAt }

theorem timely_of_moves (hinit : init c = .ok m₀) (h : Relation.ReflTransGen Move m₀ m) :
    Timely c m :=
  moves_keep (fun _ _ => Timely.move) h (timely_of_init hinit)

/-- What is left of the tasks when the clock has nothing to do is due later, since it waits behind
a task that is. -/
theorem Timely.later_of_idle (h : Timely c s) (hidle : s.Idle stop) (hopen : s.closed = false) :
    ∀ t ∈ s.tasks, ¬ t.due ≤ stop := by
  have hhead := hidle.resolve_left (by simp [hopen])
  have hqueued := h.queued
  intro t ht hle
  cases htasks : s.tasks with
  | nil =>
    rw [htasks] at ht
    cases ht
  | cons a r =>
    have hwithin := (h.within a (htasks ▸ List.mem_cons_self)).2
    rw [htasks] at ht hqueued hhead
    have ha : a.due ≤ stop := by
      rcases List.mem_cons.1 ht with rfl | hr
      · exact hle
      · exact UInt64.le_trans ((List.pairwise_cons.1 hqueued).1 t hr) hle
    exact hhead a rfl ⟨ha, h.expiresAt ▸ hwithin⟩

theorem lapse_of_run (hinit : init c = .ok m₀) (hreached : Relation.ReflTransGen Move m₀ m)
    (hopen : m.closed = false) (hrun : m.run stop = some n) :
    ∃ consumed s, Lapse m stop consumed s n := by
  obtain ⟨s, hticks, hidle, rfl⟩ := ticks_of_run hopen hrun
  obtain ⟨consumed, hconsumption, hfront, hdue⟩ := consumption_of_ticks hticks
  replace hfront : m.tasks = consumed ++ s.tasks := hfront
  have hm := timely_of_moves hinit hreached
  have hs := timely_of_moves hinit ((hreached.tail .cleared).trans (moves_of_ticks hticks))
  have hspan : s.expiresAt = m.expiresAt := hs.expiresAt.trans hm.expiresAt.symm
  have hlater := hs.later_of_idle hidle
  refine ⟨consumed, s, ?_⟩
  constructor
  case consumption => exact hconsumption
  case front =>
    rw [tasks_expire]
    exact hfront
  case due => exact hdue
  case complete =>
    intro hstays
    rw [hfront, List.filter_append, List.filter_eq_self.2 (by simpa using hdue),
      List.filter_eq_nil_iff.2 (by simpa using hlater hstays), List.append_nil]
  case before =>
    intro hends
    refine if_neg ?_
    rintro ⟨hstays, hover⟩
    rcases hends with hclosed | hbefore
    · exact Bool.false_ne_true (hstays.symm.trans hclosed)
    · exact UInt64.not_lt.2 hover (hspan ▸ hbefore)
  case after =>
    intro hstays hover
    constructor
    · have hnone : s.tasks = [] := by
        refine List.eq_nil_iff_forall_not_mem.2 fun t ht => hlater hstays t ht ?_
        exact UInt64.le_trans (hs.within t ht).2 (hs.expiresAt ▸ hspan ▸ hover)
      rw [hfront, hnone, List.append_nil]
    · unfold expire
      rw [if_pos ⟨hstays, hspan ▸ hover⟩, hs.later_eq, hspan, hm.expiresAt]

/-- A machine starts with its schedule in order, and in every state that it reaches, a run of the
clock takes the tasks that are due from the front, one after the other. There is such a run as long
as the counter has room for the tasks. -/
theorem schedule_is_kept (hinit : init c = .ok m₀) :
    c.Scheduled m₀.tasks ∧
      ∀ inputs m stop, m₀.replay inputs = some m → m.closed = false →
        (∀ n, m.run stop = some n → ∃ consumed s, Lapse m stop consumed s n) ∧
        (m.step.toNat + m.tasks.length < 2 ^ 64 → ∃ n, m.run stop = some n) := by
  constructor
  · have hstart := MachineConfig.exists_init_iff.1 ⟨m₀, hinit⟩
    obtain ⟨paths, -, -, rfl⟩ := init_eq_ok hinit
    exact MachineConfig.scheduled_tasks hstart
  · intro inputs m stop hreplay hopen
    constructor
    · intro n hrun
      exact lapse_of_run hinit (moves_of_replay hreplay) hopen hrun
    · intro hroom
      obtain ⟨n, hn, -⟩ := exists_run hroom stop
      exact ⟨n, hn⟩

/-- Three paths, declared out of order. At 510 a lock and then a dispute are due, at 520 a close,
and at the very end another lock. -/
def crowdedDeposit : MachineConfig where
  vmid := .zero
  activeAt := 500
  expiresAt := 1500
  engine := engineLabel
  pathnames := ["refund", "deposit", "fee"]
  programs := []
  schedule := [⟨1000, .lock, .tokens ["refund"]⟩, ⟨20, .close, .any⟩,
    ⟨10, .lock, .tokens ["fee", "deposit"]⟩, ⟨10, .dispute, .any⟩]

def crowdedTasks : List Task :=
  [⟨510, .lock, .tokens ["fee", "deposit"]⟩, ⟨510, .dispute, .any⟩, ⟨520, .close, .any⟩,
    ⟨1500, .lock, .tokens ["refund"]⟩]

theorem crowdedDeposit_tasks : crowdedDeposit.tasks = crowdedTasks := by cbv

/-- The crowded deposit's machine at its start, with its tasks written out. -/
def crowdedStart : Option Machine :=
  (init crowdedDeposit).toOption.map fun m => m.waiting crowdedTasks

theorem init_of_crowdedStart (h : crowdedStart = some m) : init crowdedDeposit = .ok m := by
  obtain ⟨m', hinit, rfl⟩ := Option.map_eq_some_iff.1 h
  rw [toOption_eq_some_iff] at hinit
  rw [hinit]
  obtain ⟨paths, -, -, rfl⟩ := init_eq_ok hinit
  rw [crowdedDeposit_tasks]
  rfl

/-- The lock takes the first label that it matches, the dispute the first that is open then, and the
dispute keeps the close back. The last lock still acts at 1500, and then the time is over. -/
theorem crowdedDeposit_kept :
    ∃ m consumed s n, init crowdedDeposit = .ok m ∧ crowdedDeposit.Scheduled m.tasks ∧
      Lapse m 1500 consumed s n ∧ consumed.length = 4 ∧ n.pathState? "deposit" = some .locked ∧
        n.pathState? "fee" = some .disputed ∧ n.pathState? "refund" = some .locked ∧
          n.stamps = [510, 510, 1500] ∧ n.closedAt = some 1500 := by
  have hrun : ((crowdedStart.bind fun m => (m.run 1500).map fun n => (m, n)).any
      fun (m, n) => decide (m.closed = false) && decide (n.tasks = []) &&
        decide (m.tasks.length = 4) && decide (n.pathState? "deposit" = some .locked) &&
          decide (n.pathState? "fee" = some .disputed) &&
            decide (n.pathState? "refund" = some .locked) &&
              decide (n.stamps = [510, 510, 1500]) &&
                decide (n.closedAt = some 1500)) = true := by decide +kernel
  obtain ⟨⟨m, n⟩, hrun, hends⟩ := Option.any_eq_true _ _ |>.1 hrun
  simp only [Option.bind_eq_some_iff, Option.map_eq_some_iff, Prod.mk.injEq] at hrun
  obtain ⟨m', hstart, n', hclock, hm, hn⟩ := hrun
  subst hm hn
  have hinit := init_of_crowdedStart hstart
  simp only [Bool.and_eq_true, decide_eq_true_eq] at hends
  obtain ⟨⟨⟨⟨⟨⟨⟨hopen, hnone⟩, hlength⟩, hdeposit⟩, hfee⟩, hrefund⟩, hstamps⟩, hclosed⟩ := hends
  obtain ⟨hscheduled, hkept⟩ := schedule_is_kept hinit
  obtain ⟨consumed, s, hlapse⟩ := (hkept [] _ 1500 rfl hopen).1 _ hclock
  have hall := hlapse.front
  rw [hnone, List.append_nil] at hall
  exact ⟨_, consumed, s, _, hinit, hscheduled, hlapse, hall ▸ hlength, hdeposit, hfee, hrefund,
    hstamps, hclosed⟩

/-! ## Many runs of the clock -/

/-- Advances of the clock in a row are one to the latest of the times. -/
theorem replay_clocks (m : Machine) (t : UInt64) (ts : List UInt64) :
    m.replay ((t :: ts).map .clock) = m.run (ts.foldl max t) := by
  induction ts generalizing t with
  | nil =>
    rw [List.map_singleton, replay_cons]
    exact Option.bind_fun_some _
  | cons u r ih =>
    rw [List.foldl_cons, ← ih (max t u), List.map_cons, List.map_cons, List.map_cons, replay_cons,
      replay_cons]
    show (m.run t).bind _ = (m.run (max t u)).bind _
    rw [← run_run, Option.bind_assoc]
    exact Option.bind_congr fun n _ => replay_cons n _ _

/-- The clock only counts the latest time. As long as the counter has room for the tasks, a run to
one time and then to another, earlier or later, is one run to the later of them; so a second run to
the same time changes nothing, and any number of advances are one. -/
theorem run_max (hroom : m.step.toNat + m.tasks.length < 2 ^ 64) :
    (∀ s t, ∃ n p, m.run s = some n ∧ n.run t = some p ∧ m.run (max s t) = some p) ∧
      (∀ t, ∃ n, m.run t = some n ∧ n.run t = some n) ∧
        ∀ t ts, ∃ n, m.replay ((t :: ts).map .clock) = some n ∧
          m.run (ts.foldl max t) = some n := by
  have htwo : ∀ s t, ∃ n p, m.run s = some n ∧ n.run t = some p ∧ m.run (max s t) = some p := by
    intro s t
    obtain ⟨n, hn, hcount⟩ := exists_run hroom s
    obtain ⟨p, hp, -⟩ := exists_run (Nat.lt_of_le_of_lt hcount hroom) t
    have hboth := run_run m s t
    rw [hn, Option.bind_some, hp] at hboth
    exact ⟨n, p, hn, hp, hboth.symm⟩
  refine ⟨htwo, ?_, ?_⟩
  · intro t
    obtain ⟨n, p, hn, hp, hboth⟩ := htwo t t
    rw [later_eq_right (UInt64.le_refl t), hn] at hboth
    obtain rfl := Option.some.inj hboth
    exact ⟨n, hn, hp⟩
  · intro t ts
    obtain ⟨n, hn, -⟩ := exists_run hroom (ts.foldl max t)
    exact ⟨n, (replay_clocks m t ts).trans hn, hn⟩

/-- The crowded deposit, run to its end and then to an earlier time, and in three advances. -/
theorem crowdedDeposit_run_max :
    ∃ m n, init crowdedDeposit = .ok m ∧ m.step.toNat + m.tasks.length < 2 ^ 64 ∧
      m.run 1500 = some n ∧ n.run 515 = some n ∧
        m.replay [.clock 515, .clock 510, .clock 1500] = some n ∧ n.closedAt = some 1500 := by
  have hrun : (crowdedStart.any fun m =>
      decide (m.step.toNat + m.tasks.length < 2 ^ 64) &&
        (m.run 1500).any fun n => decide (n.closedAt = some 1500)) = true := by decide +kernel
  obtain ⟨m, hstart, hends⟩ := Option.any_eq_true _ _ |>.1 hrun
  have hinit := init_of_crowdedStart hstart
  rw [Bool.and_eq_true, decide_eq_true_eq] at hends
  obtain ⟨hroom, hends⟩ := hends
  obtain ⟨n, hn, hclosed⟩ := Option.any_eq_true _ _ |>.1 hends
  obtain ⟨htwo, -, hmany⟩ := run_max hroom
  obtain ⟨n₁, p, hn₁, hp, hboth⟩ := htwo 1500 515
  obtain ⟨n₂, hn₂, hlast⟩ := hmany 515 [510, 1500]
  obtain rfl := Option.some.inj (hn.symm.trans hn₁)
  obtain rfl := Option.some.inj (hn.symm.trans hboth)
  obtain rfl := Option.some.inj (hn.symm.trans hlast)
  exact ⟨m, _, hinit, hroom, hn, hp, hn₂, of_decide_eq_true hclosed⟩

end Machine

end JointEscrow
