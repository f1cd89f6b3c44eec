import JointEscrow.Machine.Step
import JointEscrow.Proofs.Checks
import Mathlib.Tactic.Tauto

/-!
# What a witness does to a machine

The operations on a machine, each said once: `commit_eq_some_iff` and `settle_eq` give the state
after a link and after a settled path, `check_eq_ok_iff` gives the conditions on which a witness is
admitted, and `outcome_of_eval` the four things that can come of it. Later proofs go through these
and leave the operations themselves closed.
-/

namespace JointEscrow.Machine

variable {m n : Machine} {w : Witness}

/-! ## Links and settled paths -/

/-- The machine with one more link in its log and its counter at a given step. -/
def linked (m : Machine) (wid : Digest) (stamp step : UInt64) : Machine :=
  { m with
    commits := m.commits ++ [⟨m.step, stamp, wid, m.head⟩]
    head := .chain m.head wid
    step := step
    updatedAt := stamp }

theorem commit_eq_some_iff {wid : Digest} {stamp : UInt64} :
    m.commit wid stamp = some n ↔
      ∃ step : UInt64, m.step.toNat + 1 = step.toNat ∧ n = m.linked wid stamp step := by
  unfold commit
  simp only [Option.bind_eq_bind, Option.bind_eq_some_iff, addChecked_eq_some_iff]
  constructor
  · rintro ⟨step, hstep, h⟩
    exact ⟨step, hstep, (Option.some.inj h).symm⟩
  · rintro ⟨step, hstep, rfl⟩
    exact ⟨step, hstep, rfl⟩

/-- Whether moving a path to a state closes the machine. -/
def closesAt (m : Machine) (label : String) (goal : PathState) : Bool :=
  decide (goal = .closed) &&
    ({ m with paths := m.paths.insert label goal }.disputedOther? label).isNone

theorem settle_eq (m : Machine) (label : String) (goal : PathState) (stamp : UInt64) :
    m.settle label goal stamp =
      { m with
        paths := m.paths.insert label goal
        store := m.store.erase label
        output := if m.closesAt label goal then some label else m.output
        closed := m.closesAt label goal || m.closed
        closedAt := if m.closesAt label goal then some stamp else m.closedAt } := by
  -- the search for a dispute reads the new paths, whatever becomes of the store
  have hother : ({ m with
      paths := m.paths.insert label goal
      store := m.store.erase label } : Machine).disputedOther? label =
        { m with paths := m.paths.insert label goal }.disputedOther? label := rfl
  unfold settle closesAt
  simp only [hother]
  split
  · next h => simp [h.1, h.1 ▸ h.2]
  · next h =>
    by_cases hgoal : goal = .closed
    · simp_all
    · simp [hgoal]

theorem pathState?_settle (m : Machine) (label l : String) (goal : PathState) (stamp : UInt64) :
    (m.settle label goal stamp).pathState? l = if l = label then some goal else m.pathState? l := by
  rw [settle_eq]
  exact SortedMap.find?_insert m.paths label l goal

theorem store_settle (m : Machine) (label l : String) (goal : PathState) (stamp : UInt64) :
    (m.settle label goal stamp).store.find? l = if l = label then none else m.store.find? l := by
  rw [settle_eq]
  exact SortedMap.find?_erase m.store label l

/-! ## Admitted witnesses -/

theorem mem_of_addSigners {l : List PublicKey} {keys all : SortedSet PublicKey}
    (h : addSigners keys l = .ok all) {k : PublicKey} : k ∈ all ↔ k ∈ keys ∨ k ∈ l := by
  induction l generalizing keys with
  | nil =>
    cases h
    simp
  | cons a r ih =>
    rw [addSigners] at h
    split at h
    · cases h
    · rw [ih h, SortedSet.mem_insert, List.mem_cons]
      tauto

theorem checkSignatures_eq_ok_iff :
    w.checkSignatures = .ok () ↔ ∀ e ∈ w.endorsements, e.verifies w.id = true := by
  simp only [Witness.checkSignatures]
  cases h : w.endorsements.find? fun e => !e.verifies w.id with
  | none =>
    rw [List.find?_eq_none] at h
    simpa using h
  | some e =>
    have hmem := List.mem_of_find?_eq_some h
    have hbad := List.find?_some h
    simp only [reduceCtorEq, false_iff]
    intro hall
    simp [hall e hmem] at hbad

/-- The conditions on which a machine admits a witness: `current` is the state of the witness's
path, `goal` the state it asks for, and `keys` are all that have then endorsed it. -/
structure Admitted (m : Machine) (w : Witness) (current goal : PathState)
    (keys : SortedSet PublicKey) : Prop where
  vmid : w.vmid = m.vmid
  step : w.step = m.step
  valid : w.validate = .ok ()
  notEarly : m.updatedAt ≤ w.stamp
  notLate : w.stamp < m.expiresAt
  beforeTasks : ∀ t ∈ m.tasks.head?, w.stamp < t.due
  state : m.pathState? w.path = some current
  signed : ∀ e ∈ w.endorsements, e.verifies w.id = true
  granted : Program.granting m.programs w.method w.action w.path ≠ []
  permitted : ∀ k ∈ w.signers,
    ∃ p ∈ Program.granting m.programs w.method w.action w.path, p.permits k = true
  admits : current.next? w.action = some goal
  uncontested : m.contestedBy? w.action w.path = none
  collected : addSigners ((m.endorsedBy? w.action w.path).getD .empty) w.signers = .ok keys

theorem checkRequest_eq_ok_iff :
    m.checkRequest w = .ok () ↔
      w.vmid = m.vmid ∧ w.step = m.step ∧ w.validate = .ok () ∧ m.updatedAt ≤ w.stamp ∧
        w.stamp < m.expiresAt ∧ ∀ t ∈ m.tasks.head?, w.stamp < t.due := by
  unfold checkRequest
  simp only [check_bind_eq_ok_iff, ensure_eq_ok_iff, mapError_eq_ok_iff, decide_eq_true_eq]
  cases m.tasks with
  | nil => simp
  | cons t r => simp

theorem checkAuthority_eq_ok_iff :
    m.checkAuthority w = .ok () ↔
      (∀ e ∈ w.endorsements, e.verifies w.id = true) ∧
        Program.granting m.programs w.method w.action w.path ≠ [] ∧
          ∀ k ∈ w.signers,
            ∃ p ∈ Program.granting m.programs w.method w.action w.path, p.permits k = true := by
  unfold checkAuthority
  simp only [check_bind_eq_ok_iff, mapError_eq_ok_iff, checkSignatures_eq_ok_iff,
    ensure_eq_ok_iff, forM_eq_ok_iff, Bool.not_eq_true', List.isEmpty_eq_false_iff, List.any_eq_true]

theorem check_eq_ok_iff {goal : PathState} {keys : SortedSet PublicKey} :
    m.check w = .ok (goal, keys) ↔ ∃ current, m.Admitted w current goal keys := by
  unfold check
  rw [check_bind_eq_ok_iff, checkRequest_eq_ok_iff]
  constructor
  · rintro ⟨⟨hvmid, hstep, hvalid, hearly, hlate, htasks⟩, h⟩
    -- a look-up that fails ends in an error, which leaves one case of each split
    cases hstate : m.pathState? w.path with
    | none => simp [hstate] at h
    | some current =>
      simp only [hstate, check_bind_eq_ok_iff, checkAuthority_eq_ok_iff] at h
      obtain ⟨⟨hsigned, hgranted, hpermitted⟩, h⟩ := h
      cases hgoal : current.next? w.action with
      | none => simp [hgoal] at h
      | some target =>
        cases hother : m.contestedBy? w.action w.path with
        | some other => simp [hgoal, hother] at h
        | none =>
          cases hkeys : addSigners ((m.endorsedBy? w.action w.path).getD .empty) w.signers with
          | error k => simp [hgoal, hother, hkeys] at h
          | ok all =>
            simp only [hgoal, hother, hkeys, Except.ok.injEq, Prod.mk.injEq] at h
            obtain ⟨rfl, rfl⟩ := h
            exact ⟨current, hvmid, hstep, hvalid, hearly, hlate, htasks, hstate, hsigned,
              hgranted, hpermitted, hgoal, hother, hkeys⟩
  · rintro ⟨current, h⟩
    refine ⟨⟨h.vmid, h.step, h.valid, h.notEarly, h.notLate, h.beforeTasks⟩, ?_⟩
    simp only [h.state, check_bind_eq_ok_iff, checkAuthority_eq_ok_iff]
    refine ⟨⟨h.signed, h.granted, h.permitted⟩, ?_⟩
    simp only [h.admits, h.uncontested, h.collected]

/-! ## The outcome of a witness -/

/-- The machine that has taken in a witness with which `keys` have endorsed the action, before a
program is asked. -/
def accepting (m : Machine) (w : Witness) (keys : SortedSet PublicKey) (step : UInt64) : Machine :=
  { m.linked w.id w.stamp step with
    error := none
    store := record m.store w.path w.action keys }

/-- What can come of a witness: a closed machine ignores it; an open one refuses it as a whole, or
leaves its keys with the pending action, or finds a program satisfied and moves the path. -/
inductive Outcome (m : Machine) (w : Witness) : Machine → Prop where
  | ignored (hclosed : m.closed = true) : Outcome m w m
  | refused {e : Refusal} (hopen : m.closed = false) (hcheck : m.check w = .error e) :
      Outcome m w { m with error := some e.message }
  | collected {current goal : PathState} {keys : SortedSet PublicKey} {step : UInt64}
      (hopen : m.closed = false) (hadmitted : m.Admitted w current goal keys)
      (hstep : m.step.toNat + 1 = step.toNat)
      (hprogram : Program.firstSatisfied m.programs w.method w.action w.path keys = none) :
      Outcome m w (m.accepting w keys step)
  | authorized {current goal : PathState} {keys : SortedSet PublicKey} {step : UInt64}
      {p : Program} (hopen : m.closed = false) (hadmitted : m.Admitted w current goal keys)
      (hstep : m.step.toNat + 1 = step.toNat)
      (hprogram : Program.firstSatisfied m.programs w.method w.action w.path keys = some p) :
      Outcome m w ((m.accepting w keys step).settle w.path goal w.stamp)

theorem outcome_of_eval (h : m.eval w = some n) : Outcome m w n := by
  unfold eval apply at h
  by_cases hclosed : m.closed = true
  · simp only [if_pos hclosed, Option.some.injEq] at h
    exact h ▸ .ignored hclosed
  · simp only [if_neg hclosed] at h
    have hopen : m.closed = false := by simpa using hclosed
    cases hcheck : m.check w with
    | error e =>
      simp only [hcheck, Option.some.injEq] at h
      exact h ▸ .refused hopen hcheck
    | ok r =>
      obtain ⟨goal, keys⟩ := r
      obtain ⟨current, hadmitted⟩ := check_eq_ok_iff.1 hcheck
      simp only [hcheck] at h
      cases hcommit : ({ m with error := none } : Machine).commit w.id w.stamp with
      | none => simp [hcommit] at h
      | some s =>
        obtain ⟨step, hstep, rfl⟩ := commit_eq_some_iff.1 hcommit
        simp only [hcommit] at h
        cases hprogram : Program.firstSatisfied m.programs w.method w.action w.path keys with
        | none =>
          simp only [hprogram, Option.isSome_none, Bool.false_eq_true, if_false,
            Option.some.injEq] at h
          exact h ▸ .collected hopen hadmitted hstep hprogram
        | some p =>
          simp only [hprogram, Option.isSome_some, if_true, Option.some.injEq] at h
          exact h ▸ .authorized hopen hadmitted hstep hprogram

/-- The machine takes the witness into its log. -/
def Commits (m : Machine) (w : Witness) (n : Machine) : Prop :=
  m.eval w = some n ∧ n.commits = m.commits ++ [⟨m.step, w.stamp, w.id, m.head⟩]

/-- Only an open machine commits a witness, one that it admits, and then it notes no refusal. -/
theorem Commits.accepted (h : m.Commits w n) :
    m.closed = false ∧ n.error = none ∧ ∃ current goal keys, m.Admitted w current goal keys := by
  obtain ⟨heval, hlog⟩ := h
  cases outcome_of_eval heval with
  | ignored hclosed => simp at hlog
  | refused hopen hcheck => simp at hlog
  | collected hopen hadmitted hstep hprogram => exact ⟨hopen, rfl, _, _, _, hadmitted⟩
  | authorized hopen hadmitted hstep hprogram =>
    rw [settle_eq]
    exact ⟨hopen, rfl, _, _, _, hadmitted⟩

/-- The machine that has committed a witness, its path moved if a program is satisfied. -/
def committed (m : Machine) (w : Witness) (goal : PathState) (keys : SortedSet PublicKey)
    (step : UInt64) : Machine :=
  if (Program.firstSatisfied m.programs w.method w.action w.path keys).isSome then
    (m.accepting w keys step).settle w.path goal w.stamp
  else m.accepting w keys step

theorem Commits.eq_committed (h : m.Commits w n) :
    ∃ current goal keys, ∃ step : UInt64, m.Admitted w current goal keys ∧
      m.step.toNat + 1 = step.toNat ∧ n = m.committed w goal keys step := by
  obtain ⟨heval, hlog⟩ := h
  cases outcome_of_eval heval with
  | ignored hclosed => simp at hlog
  | refused hopen hcheck => simp at hlog
  | @collected current goal keys step hopen hadmitted hstep hprogram =>
    refine ⟨current, goal, keys, step, hadmitted, hstep, ?_⟩
    unfold committed
    rw [hprogram]
    rfl
  | @authorized current goal keys step p hopen hadmitted hstep hprogram =>
    refine ⟨current, goal, keys, step, hadmitted, hstep, ?_⟩
    unfold committed
    rw [hprogram]
    rfl

/-- The step counter moves with the log, and with nothing else. -/
theorem commits_of_step_ne (heval : m.eval w = some n) (hstep : n.step ≠ m.step) :
    m.Commits w n := by
  refine ⟨heval, ?_⟩
  -- the outcomes without a link leave the counter where it was
  cases outcome_of_eval heval with
  | ignored hclosed => exact absurd rfl hstep
  | refused hopen hcheck => exact absurd rfl hstep
  | collected hopen hadmitted hnext hprogram => rfl
  | authorized hopen hadmitted hnext hprogram =>
    rw [settle_eq]
    rfl

/-! ## What a witness leaves alone -/

/-- The fields of a machine that are set once and for all at its start. -/
def fixed (m : Machine) : Digest × String × UInt64 × UInt64 × List Program :=
  (m.vmid, m.engine, m.activeAt, m.expiresAt, m.programs)

theorem fixed_of_outcome {w : Witness} (h : Outcome m w n) : n.fixed = m.fixed := by
  cases h with
  | ignored hclosed => rfl
  | refused hopen hcheck => rfl
  | collected hopen hadmitted hstep hprogram => rfl
  | authorized hopen hadmitted hstep hprogram =>
    rw [settle_eq]
    rfl

theorem tasks_of_outcome {w : Witness} (h : Outcome m w n) : n.tasks = m.tasks := by
  cases h with
  | ignored hclosed => rfl
  | refused hopen hcheck => rfl
  | collected hopen hadmitted hstep hprogram => rfl
  | authorized hopen hadmitted hstep hprogram =>
    rw [settle_eq]
    rfl

end JointEscrow.Machine
