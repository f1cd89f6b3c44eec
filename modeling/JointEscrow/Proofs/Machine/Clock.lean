import JointEscrow.Machine.Clock
import JointEscrow.Proofs.Machine.Outcome
import JointEscrow.Proofs.Sorted
import Mathlib.Logic.Relation

/-!
# What the clock does to a machine

Advancing the clock uses up waiting tasks one by one and may then close the machine. `Tick` says
what becomes of one task, `ticks_of_run` that a whole run is a chain of them, and `run_run` that two
runs in a row are one run to the later time.
-/

namespace JointEscrow

theorem le_later_iff {a s t : UInt64} : a ≤ max s t ↔ a ≤ s ∨ a ≤ t := by
  change a ≤ (if s ≤ t then t else s) ↔ _
  split <;> grind

theorem later_eq_right {s t : UInt64} (h : s ≤ t) : max s t = t := if_pos h

theorem later_le {s t u : UInt64} (hs : s ≤ u) (ht : t ≤ u) : max s t ≤ u := by
  change (if s ≤ t then t else s) ≤ u
  split
  · exact ht
  · exact hs

namespace Machine

variable {m n : Machine} {t : Task} {stop : UInt64}

/-! ## One task -/

/-- What a machine's log notes when the task acts on a path. -/
def firing (m : Machine) (t : Task) (label : String) : Firing :=
  ⟨m.vmid, t.action, label, t.due, m.step⟩

/-- A task acts on an open path that its pattern admits, and moves it as its action does. -/
theorem target?_spec {label : String} {goal : PathState} (h : m.target? t = some (label, goal)) :
    t.path.admits label = true ∧ m.pathState? label = some .open ∧
      PathState.open.next? t.action = some goal ∧ m.contestedBy? t.action label = none := by
  obtain ⟨⟨l, state⟩, hmem, h⟩ := List.exists_of_findSome?_eq_some h
  obtain ⟨g, hg, heq⟩ := Option.map_eq_some_iff.1 h
  cases heq
  unfold taskTarget? at hg
  split at hg
  · next hmay =>
    obtain ⟨hadmits, rfl, hfree⟩ := hmay
    exact ⟨hadmits, SortedMap.mem_entries_iff.1 hmem, hg, hfree⟩
  · cases hg

theorem fire_eq_some_iff :
    m.fire t = some n ↔
      (m.target? t = none ∧ n = m) ∨
        ∃ label goal, ∃ step : UInt64, m.target? t = some (label, goal) ∧
          m.step.toNat + 1 = step.toNat ∧
            n = (m.linked (m.firing t label).id t.due step).settle label goal t.due := by
  unfold fire
  cases htarget : m.target? t with
  | none => simp [eq_comm]
  | some r =>
    obtain ⟨label, goal⟩ := r
    simp only [Option.bind_eq_bind, Option.bind_eq_some_iff, commit_eq_some_iff]
    constructor
    · rintro ⟨s, ⟨step, hstep, rfl⟩, h⟩
      exact .inr ⟨label, goal, step, rfl, hstep, (Option.some.inj h).symm⟩
    · rintro (⟨h, -⟩ | ⟨label', goal', step, h, hstep, rfl⟩)
      · cases h
      · cases h
        exact ⟨_, ⟨step, hstep, rfl⟩, rfl⟩

/-- One waiting task that is due by a time is used up: without effect, or by acting on a path. -/
inductive Tick (stop : UInt64) (m : Machine) : Machine → Prop where
  | skipped {t : Task} {r : List Task} (hopen : m.closed = false) (htasks : m.tasks = t :: r)
      (hdue : t.due ≤ stop) (hspan : t.due ≤ m.expiresAt) (htarget : m.target? t = none) :
      Tick stop m { m with tasks := r }
  | fired {t : Task} {r : List Task} {label : String} {goal : PathState} {step : UInt64}
      (hopen : m.closed = false) (htasks : m.tasks = t :: r) (hdue : t.due ≤ stop)
      (hspan : t.due ≤ m.expiresAt) (htarget : m.target? t = some (label, goal))
      (hstep : m.step.toNat + 1 = step.toNat) :
      Tick stop m
        { (m.linked (m.firing t label).id t.due step).settle label goal t.due with tasks := r }

theorem fixed_of_tick (h : Tick stop m n) : n.fixed = m.fixed := by
  cases h with
  | skipped hopen htasks hdue hspan htarget => rfl
  | fired hopen htasks hdue hspan htarget hstep =>
    rw [settle_eq]
    rfl

theorem tasks_of_tick (h : Tick stop m n) : ∃ t, m.tasks = t :: n.tasks := by
  cases h with
  | skipped hopen htasks hdue hspan htarget => exact ⟨_, htasks⟩
  | fired hopen htasks hdue hspan htarget hstep => exact ⟨_, htasks⟩

theorem error_of_tick (h : Tick stop m n) : n.error = m.error := by
  cases h with
  | skipped hopen htasks hdue hspan htarget => rfl
  | fired hopen htasks hdue hspan htarget hstep =>
    rw [settle_eq]
    rfl

/-- Any number of tasks used up one after the other. -/
abbrev Ticks (stop : UInt64) : Machine → Machine → Prop := Relation.ReflTransGen (Tick stop)

theorem fixed_of_ticks (h : Ticks stop m n) : n.fixed = m.fixed := by
  induction h with
  | refl => rfl
  | tail _ hab ih => exact (fixed_of_tick hab).trans ih

theorem expiresAt_of_ticks (h : Ticks stop m n) : n.expiresAt = m.expiresAt :=
  congrArg (fun f => f.2.2.2.1) (fixed_of_ticks h)

theorem error_of_ticks (h : Ticks stop m n) : n.error = m.error := by
  induction h with
  | refl => rfl
  | tail _ hab ih => exact (error_of_tick hab).trans ih

/-- The clock has nothing left to do until `stop`. -/
def Idle (m : Machine) (stop : UInt64) : Prop :=
  m.closed = true ∨ ∀ t ∈ m.tasks.head?, ¬ (t.due ≤ stop ∧ t.due ≤ m.expiresAt)

theorem ticks_of_fireDue {ts : List Task} (htasks : m.tasks = ts)
    (h : fireDue stop ts m = some n) : Ticks stop m n ∧ n.Idle stop := by
  -- the induction is on the waiting tasks, each of which is used up by one tick
  induction ts generalizing m with
  | nil =>
    cases h
    refine ⟨?_, .inr (by simp)⟩
    rw [← htasks]
  | cons t r ih =>
    rw [fireDue] at h
    split at h
    · next hdue =>
      obtain ⟨hopen, hstop, hspan⟩ := hdue
      obtain ⟨s, hfire, h⟩ := Option.bind_eq_some_iff.1 h
      obtain ⟨hticks, hidle⟩ := ih rfl h
      refine ⟨hticks.head ?_, hidle⟩
      rcases fire_eq_some_iff.1 hfire with ⟨htarget, rfl⟩ | ⟨label, goal, step, htarget, hstep, rfl⟩
      · exact .skipped hopen htasks hstop hspan htarget
      · exact .fired hopen htasks hstop hspan htarget hstep
    · next hdue =>
      cases h
      rw [← htasks]
      refine ⟨.refl, ?_⟩
      by_cases hclosed : m.closed = true
      · exact .inl hclosed
      · refine .inr fun t' ht' hboth => hdue ?_
        have heq : t = t' := by simpa [htasks] using ht'
        exact ⟨by simpa using hclosed, heq ▸ hboth⟩

/-! ## A run of the clock -/

/-- Expiry touches nothing but the closing of a machine and the time of its last update. -/
theorem expire_eq (m : Machine) (stop : UInt64) :
    ∃ closed closedAt updatedAt, m.expire stop =
      { m with closed := closed, closedAt := closedAt, updatedAt := updatedAt } := by
  unfold expire
  split
  · exact ⟨_, _, _, rfl⟩
  · exact ⟨_, _, _, rfl⟩

theorem run_of_closed (hclosed : m.closed = true) : m.run stop = some m := by
  unfold run
  rw [if_pos hclosed]

theorem run_of_open (hopen : m.closed = false) :
    m.run stop = (fireDue stop m.tasks { m with error := none }).map (·.expire stop) := by
  unfold run
  rw [if_neg (by simp [hopen])]
  cases fireDue stop m.tasks { m with error := none } <;> rfl

theorem ticks_of_run (hopen : m.closed = false) (h : m.run stop = some n) :
    ∃ s : Machine, Ticks stop { m with error := none } s ∧ s.Idle stop ∧ n = s.expire stop := by
  rw [run_of_open hopen] at h
  obtain ⟨s, hfire, rfl⟩ := Option.map_eq_some_iff.1 h
  obtain ⟨hticks, hidle⟩ := ticks_of_fireDue (m := { m with error := none }) rfl hfire
  exact ⟨s, hticks, hidle, rfl⟩

theorem fixed_expire (m : Machine) (stop : UInt64) : (m.expire stop).fixed = m.fixed := by
  obtain ⟨closed, closedAt, updatedAt, h⟩ := expire_eq m stop
  rw [h]
  rfl

theorem tasks_expire (m : Machine) (stop : UInt64) : (m.expire stop).tasks = m.tasks := by
  obtain ⟨closed, closedAt, updatedAt, h⟩ := expire_eq m stop
  rw [h]

/-! ## Two runs in a row -/

theorem fireDue_of_idle (h : m.Idle stop) : fireDue stop m.tasks m = some m := by
  cases htasks : m.tasks with
  | nil => rw [fireDue, ← htasks]
  | cons t r =>
    have hdue : ¬ (m.closed = false ∧ t.due ≤ stop ∧ t.due ≤ m.expiresAt) := by
      rintro ⟨hopen, hboth⟩
      rcases h with hclosed | hhead
      · rw [hopen] at hclosed
        cases hclosed
      · exact hhead t (by rw [htasks]; rfl) hboth
    rw [fireDue, if_neg hdue, ← htasks]

/-- Firing what is due by one time and then what is due by another is firing what is due by the
later of them. -/
theorem fireDue_fireDue {s t : UInt64} {ts : List Task} (htasks : m.tasks = ts) :
    ((fireDue s ts m).bind fun n => fireDue t n.tasks n) = fireDue (max s t) ts m := by
  induction ts generalizing m with
  | nil => rfl
  | cons a r ih =>
    by_cases hdue : m.closed = false ∧ a.due ≤ s ∧ a.due ≤ m.expiresAt
    · have hlater : m.closed = false ∧ a.due ≤ max s t ∧ a.due ≤ m.expiresAt :=
        ⟨hdue.1, le_later_iff.2 (.inl hdue.2.1), hdue.2.2⟩
      rw [fireDue, if_pos hdue, fireDue, if_pos hlater]
      simp only [Option.bind_eq_bind, Option.bind_assoc]
      congr 1
      -- whatever the first task does, the rest is the same statement about the rest
      funext next
      exact ih rfl
    · rw [fireDue, if_neg hdue, ← htasks, Option.bind_some]
      -- the first task waits for its time, so the earlier firing has changed nothing
      rcases UInt64.le_total s t with hst | hts
      · rw [later_eq_right hst]
      · have hidle : m.Idle s := by
          refine (Bool.eq_false_or_eq_true m.closed).imp id fun hopen => ?_
          rw [htasks]
          rintro t' ⟨⟩ hboth
          exact hdue ⟨hopen, hboth⟩
        have hidle' : m.Idle t := hidle.imp id fun h t' ht' hboth =>
          h t' ht' ⟨UInt64.le_trans hboth.1 hts, hboth.2⟩
        have hmax : m.Idle (max s t) := hidle.imp id fun h t' ht' hboth =>
          h t' ht' ⟨(le_later_iff.1 hboth.1).elim id fun h => UInt64.le_trans h hts, hboth.2⟩
        rw [fireDue_of_idle hidle', fireDue_of_idle hmax]

/-- After one run of the clock, the next one only fires what has become due. -/
theorem run_expire {s t : UInt64} (hidle : m.Idle s) (herror : m.error = none) :
    (m.expire s).run t = (fireDue t m.tasks m).map (·.expire (max s t)) := by
  cases hstate : m.closed with
  | true =>
    have hstays : ∀ u, m.expire u = m := fun u => if_neg (by simp [hstate])
    rw [hstays, run_of_closed hstate, fireDue_of_idle (.inl hstate), Option.map_some, hstays]
  | false =>
    by_cases hover : m.expiresAt ≤ s
    · -- nothing was left to do when the first run closed the machine
      have hidle' : m.Idle t := by
        refine hidle.imp id fun h a ha hboth => h a ha ⟨?_, hboth.2⟩
        exact UInt64.le_trans hboth.2 hover
      have hexpired : ∀ u, m.expiresAt ≤ u → m.expire u = m.expire s := by
        intro u hu
        unfold expire
        simp only [hstate, hu, hover, and_self, if_true]
      have hclosed : (m.expire s).closed = true := by
        unfold expire
        simp only [hstate, hover, and_self, if_true]
      rw [run_of_closed hclosed, fireDue_of_idle hidle', Option.map_some,
        hexpired _ (le_later_iff.2 (.inl hover))]
    · -- the first run has left the machine open, so the second one goes on firing
      have hnow : m.expire s = m := if_neg fun h => hover h.2
      have hclean : { m with error := none } = m := by rw [← herror]
      rw [hnow, run_of_open hstate, hclean]
      cases hfire : fireDue t m.tasks m with
      | none => rfl
      | some n =>
        have hspan := expiresAt_of_ticks (ticks_of_fireDue rfl hfire).1
        rw [Option.map_some, Option.map_some]
        unfold expire
        simp only [hspan, le_later_iff, hover, false_or]

/-- Two runs of the clock in a row are one run to the later time. -/
theorem run_run (m : Machine) (s t : UInt64) :
    ((m.run s).bind fun n => n.run t) = m.run (max s t) := by
  cases hstate : m.closed with
  | true =>
    rw [run_of_closed hstate, run_of_closed hstate, Option.bind_some, run_of_closed hstate]
  | false =>
    have hclean : ({ m with error := none } : Machine).tasks = m.tasks := rfl
    have hfires := fireDue_fireDue (s := s) (t := t) hclean
    rw [run_of_open hstate, run_of_open hstate, ← hfires]
    cases hfire : fireDue s m.tasks { m with error := none } with
    | none => rfl
    | some n =>
      obtain ⟨hticks, hidle⟩ := ticks_of_fireDue (m := { m with error := none }) rfl hfire
      exact run_expire hidle (error_of_ticks hticks)

end Machine

end JointEscrow
