import JointEscrow.Proofs.Machine.Clock
import Mathlib.Data.List.Infix

/-!
# Runs of a machine

A host gives its machine witnesses and times, one after the other; `replay` is the machine after a
list of them. Every run is a chain of single moves (`moves_of_replay`), so what each move keeps
holds of every state that a run reaches (`moves_keep`). What no input changes is stated here too:
the fixed fields, and that tasks are only ever used up from the front.
-/

namespace JointEscrow

/-- What a host gives its machine: a witness to evaluate, or a time to advance the clock to. -/
inductive Input where
  | witness (w : Witness)
  | clock (stop : UInt64)
  deriving DecidableEq, Repr

namespace Machine

variable {m n : Machine} {inputs : List Input}

/-- The machine after one input; none when the step counter is at its end. -/
def accept (m : Machine) : Input → Option Machine
  | .witness w => m.eval w
  | .clock stop => m.run stop

/-- The machine after a list of inputs, taken in order. -/
def replay (m : Machine) (inputs : List Input) : Option Machine := inputs.foldlM accept m

theorem replay_cons (m : Machine) (i : Input) (r : List Input) :
    m.replay (i :: r) = (m.accept i).bind (·.replay r) := rfl

theorem replay_append (m : Machine) (a b : List Input) :
    m.replay (a ++ b) = (m.replay a).bind (·.replay b) := List.foldlM_append

theorem replay_snoc (m : Machine) (a : List Input) (i : Input) :
    m.replay (a ++ [i]) = (m.replay a).bind (·.accept i) := by
  rw [replay_append]
  congr 1
  funext s
  rw [replay_cons]
  cases s.accept i <;> rfl

theorem replay_snoc_eq_some_iff {a : List Input} {i : Input} :
    m.replay (a ++ [i]) = some n ↔ ∃ s, m.replay a = some s ∧ s.accept i = some n := by
  rw [replay_snoc, Option.bind_eq_some_iff]

theorem accept_of_closed (hclosed : m.closed = true) (i : Input) : m.accept i = some m := by
  cases i with
  | witness w =>
    change m.eval w = some m
    unfold eval apply
    rw [if_pos hclosed]
  | clock stop => exact run_of_closed hclosed

/-! ## Single moves -/

/-- A single move of a machine: the outcome of a witness, a task used up, a noted refusal cleared,
or the expiry. -/
inductive Move (m : Machine) : Machine → Prop where
  | witness {w : Witness} {n : Machine} (h : Outcome m w n) : Move m n
  | tick {stop : UInt64} {n : Machine} (h : Tick stop m n) : Move m n
  | cleared : Move m { m with error := none }
  | expired {stop : UInt64} (hopen : m.closed = false) (hidle : m.Idle stop)
      (hover : m.expiresAt ≤ stop) : Move m (m.expire stop)

theorem moves_of_ticks {stop : UInt64} (h : Ticks stop m n) : Relation.ReflTransGen Move m n :=
  Relation.ReflTransGen.mono (fun _ _ => .tick) _ _ h

theorem moves_of_accept {i : Input} (h : m.accept i = some n) : Relation.ReflTransGen Move m n := by
  cases i with
  | witness w => exact .single (.witness (outcome_of_eval h))
  | clock stop =>
    change m.run stop = some n at h
    by_cases hclosed : m.closed = true
    · rw [run_of_closed hclosed] at h
      cases h
      exact .refl
    · obtain ⟨s, hticks, hidle, rfl⟩ := ticks_of_run (by simpa using hclosed) h
      have hmoves : Relation.ReflTransGen Move m s :=
        (Relation.ReflTransGen.single .cleared).trans (moves_of_ticks hticks)
      -- past its end the machine expires, with one more move
      by_cases hover : s.closed = false ∧ s.expiresAt ≤ stop
      · exact hmoves.tail (.expired hover.1 hidle hover.2)
      · unfold expire
        rw [if_neg hover]
        exact hmoves

theorem moves_of_replay (h : m.replay inputs = some n) : Relation.ReflTransGen Move m n := by
  induction inputs generalizing m with
  | nil =>
    cases h
    exact .refl
  | cons i r ih =>
    rw [replay_cons, Option.bind_eq_some_iff] at h
    obtain ⟨s, haccept, h⟩ := h
    exact (moves_of_accept haccept).trans (ih h)

/-- What every single move keeps, a chain of moves keeps. -/
theorem moves_keep {P : Machine → Prop} (hmove : ∀ a b : Machine, P a → Move a b → P b)
    (h : Relation.ReflTransGen Move m n) (hm : P m) : P n := by
  induction h with
  | refl => exact hm
  | tail _ hab ih => exact hmove _ _ ih hab

/-! ## What no input changes -/

theorem fixed_of_move (h : Move m n) : n.fixed = m.fixed := by
  cases h with
  | witness h => exact fixed_of_outcome h
  | tick h => exact fixed_of_tick h
  | cleared => rfl
  | expired hopen hidle hover => exact fixed_expire m _

theorem fixed_of_moves (h : Relation.ReflTransGen Move m n) : n.fixed = m.fixed :=
  moves_keep (P := fun s => s.fixed = m.fixed)
    (fun _ _ hs hmove => (fixed_of_move hmove).trans hs) h rfl

theorem fixed_of_replay (h : m.replay inputs = some n) : n.fixed = m.fixed :=
  fixed_of_moves (moves_of_replay h)

/-- Tasks are used up from the front. -/
theorem tasks_suffix_of_move (h : Move m n) : n.tasks <:+ m.tasks := by
  cases h with
  | witness h => exact (tasks_of_outcome h).symm ▸ List.suffix_refl _
  | tick h =>
    obtain ⟨t, htasks⟩ := tasks_of_tick h
    exact htasks ▸ List.suffix_cons t n.tasks
  | cleared => exact List.suffix_refl _
  | expired hopen hidle hover => exact (tasks_expire m _).symm ▸ List.suffix_refl _

theorem tasks_suffix_of_moves (h : Relation.ReflTransGen Move m n) : n.tasks <:+ m.tasks :=
  moves_keep (P := fun s => s.tasks <:+ m.tasks)
    (fun _ _ hs hmove => (tasks_suffix_of_move hmove).trans hs) h (List.suffix_refl _)

/-! ## The start of a run -/

theorem mem_tasks {c : MachineConfig} {t : Task} (h : t ∈ c.tasks) :
    ∃ e ∈ c.schedule, t = ⟨c.activeAt + e.stamp, e.action, e.path⟩ := by
  rw [MachineConfig.tasks, List.mem_mergeSort, List.mem_map] at h
  obtain ⟨e, he, rfl⟩ := h
  exact ⟨e, he, rfl⟩

/-- A machine starts with the paths of its configuration open and its schedule waiting, with nothing
collected and nothing in its log. -/
theorem init_eq_ok {c : MachineConfig} (h : init c = .ok m) :
    ∃ paths : SortedMap String PathState,
      c.pathnames.foldlM MachineConfig.declare .empty = .ok paths ∧ c.activeAt < c.expiresAt ∧
        m = {
          vmid := c.vmid
          engine := c.engine
          activeAt := c.activeAt
          expiresAt := c.expiresAt
          updatedAt := c.activeAt
          head := c.genesis
          step := 0
          paths := paths
          programs := c.programs.map .ofTerms
          store := .empty
          commits := []
          tasks := c.tasks
          output := none
          error := none
          closed := false
          closedAt := none } := by
  unfold init at h
  rw [check_bind_eq_ok_iff, bind_eq_ok_iff] at h
  obtain ⟨-, paths, hpaths, h⟩ := h
  simp only [check_bind_eq_ok_iff, ensure_eq_ok_iff, decide_eq_true_eq] at h
  obtain ⟨hspan, -, -, h⟩ := h
  exact ⟨paths, hpaths, hspan, (pure_eq_ok_iff.1 h).symm⟩

end Machine

end JointEscrow
