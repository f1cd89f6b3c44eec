import JointEscrow.Proofs.Machine.Replay
import JointEscrow.Proofs.Machine.Start

/-!
# Disputes and the outcome

At most one path of a machine is in dispute at a time, and nothing closes past a dispute on another
path. So the first path that closes ends the machine, with itself as the outcome. The invariant
`Coherent` says how the paths, the outcome and the end of a machine agree. Every single move keeps
it, and `coherent_of_reached` draws the conclusions for all states that calls lead to. `Settles` are
the places where a path changes: no call changes one anywhere else (`settles_of_call`).
-/

namespace JointEscrow

theorem SortedMap.mem_keys_iff {κ α : Type} [LT κ] [KeyOrder κ] [DecidableEq κ]
    {m : SortedMap κ α} {k : κ} : k ∈ m.keys ↔ ∃ a, m.find? k = some a := by
  unfold keys
  rw [List.mem_map]
  constructor
  · rintro ⟨⟨k', a⟩, hmem, rfl⟩
    exact ⟨a, mem_entries_iff.1 hmem⟩
  · rintro ⟨a, ha⟩
    exact ⟨(k, a), mem_entries_iff.2 ha, rfl⟩

namespace Machine

variable {m n : Machine} {labels : List String} {label : String}

/-! ## Looking for a dispute -/

theorem disputedOther?_eq_none_iff :
    m.disputedOther? label = none ↔ ∀ l, m.pathState? l = some .disputed → l = label := by
  unfold disputedOther?
  rw [Option.map_eq_none_iff, List.find?_eq_none]
  constructor
  · intro h l hl
    have hentry := h (l, .disputed) (SortedMap.mem_entries_iff.2 hl)
    simpa using hentry
  · rintro h ⟨l, state⟩ hmem
    by_cases hstate : state = .disputed
    · subst hstate
      simp [h l (SortedMap.mem_entries_iff.1 hmem)]
    · simp [hstate]

/-- What closes or disputes a path leaves no dispute elsewhere: a close and a dispute are kept back
by one, and what is resolved is the dispute itself. -/
theorem disputed_eq_of_next? {current goal : PathState} {action : Action}
    (hone : ∀ a b, m.pathState? a = some .disputed → m.pathState? b = some .disputed → a = b)
    (hcurrent : m.pathState? label = some current) (hnext : current.next? action = some goal)
    (hfree : m.contestedBy? action label = none) (hgoal : goal = .closed ∨ goal = .disputed) :
    ∀ l, m.pathState? l = some .disputed → l = label := by
  intro l hl
  cases action with
  | close => exact disputedOther?_eq_none_iff.1 hfree l hl
  | dispute => exact disputedOther?_eq_none_iff.1 hfree l hl
  | resolve =>
    have hdisputed : current = .disputed := by
      cases current <;> first | rfl | cases hnext
    exact hone l label hl (hdisputed ▸ hcurrent)
  | lock =>
    exfalso
    cases current <;> cases hnext
    rcases hgoal with h | h <;> cases h
  | release =>
    exfalso
    cases current <;> cases hnext
    rcases hgoal with h | h <;> cases h

/-! ## Paths, outcome and end -/

/-- The paths are the declared ones with at most one in dispute, the outcome is the closed path, and
the machine has ended when it has a time of its end, as it has when there is an outcome. -/
structure Coherent (labels : List String) (m : Machine) : Prop where
  labels : ∀ l, l ∈ m.paths.keys ↔ l ∈ labels
  oneDispute : ∀ a b, m.pathState? a = some .disputed → m.pathState? b = some .disputed → a = b
  output : ∀ l, m.output = some l ↔ m.pathState? l = some .closed
  ended : m.closed = true ↔ m.closedAt.isSome = true
  decided : m.output.isSome = true → m.closed = true

theorem Coherent.closed_eq (h : Coherent labels m) {a b : String}
    (ha : m.pathState? a = some .closed) (hb : m.pathState? b = some .closed) : a = b :=
  Option.some.inj (((h.output a).2 ha).symm.trans ((h.output b).2 hb))

theorem Coherent.closed_of_path (h : Coherent labels m) {l : String}
    (hl : m.pathState? l = some .closed) : m.closed = true := by
  apply h.decided
  rw [(h.output l).2 hl]
  rfl

/-- The moves that leave the paths and the end alone. -/
theorem Coherent.congr (h : Coherent labels m) (hpaths : n.paths = m.paths)
    (houtput : n.output = m.output) (hclosed : n.closed = m.closed)
    (hclosedAt : n.closedAt = m.closedAt) : Coherent labels n := by
  have hstate : ∀ l, n.pathState? l = m.pathState? l := by
    intro l
    unfold pathState?
    rw [hpaths]
  constructor
  · rw [hpaths]
    exact h.labels
  · simpa only [hstate] using h.oneDispute
  · simpa only [hstate, houtput] using h.output
  · rw [hclosed, hclosedAt]
    exact h.ended
  · rw [houtput, hclosed]
    exact h.decided

/-! ## A path that moves -/

section Settled

variable {current goal : PathState} {action : Action}

/-- A path that closes is the last one in dispute, so it ends the machine. -/
theorem Coherent.closesAt_eq (h : Coherent labels m) (hcurrent : m.pathState? label = some current)
    (hnext : current.next? action = some goal) (hfree : m.contestedBy? action label = none) :
    m.closesAt label goal = decide (goal = .closed) := by
  unfold closesAt
  by_cases hgoal : goal = .closed
  · have hothers := disputed_eq_of_next? h.oneDispute hcurrent hnext hfree (.inl hgoal)
    have hnone : ({ m with paths := m.paths.insert label goal } : Machine).disputedOther? label
        = none := by
      rw [disputedOther?_eq_none_iff]
      intro l hl
      by_contra hne
      have hbefore : m.pathState? l = some .disputed := by
        unfold pathState? at hl ⊢
        rwa [SortedMap.find?_insert, if_neg hne] at hl
      exact hne (hothers l hbefore)
    rw [hnone, Option.isNone_none, Bool.and_true]
  · simp [hgoal]

theorem Coherent.settle (h : Coherent labels m) (hopen : m.closed = false)
    (hcurrent : m.pathState? label = some current) (hnext : current.next? action = some goal)
    (hfree : m.contestedBy? action label = none) (stamp : UInt64) :
    Coherent labels (m.settle label goal stamp) := by
  have hstate := fun l => pathState?_settle m label l goal stamp
  have hnone : m.output = none := by
    by_contra hsome
    have hclosed := h.decided (Option.isSome_iff_ne_none.2 hsome)
    rw [hopen] at hclosed
    cases hclosed
  have hunclosed : ∀ l, m.pathState? l ≠ some .closed := by
    intro l hl
    have houtput := (h.output l).2 hl
    rw [hnone] at houtput
    cases houtput
  refine ⟨?labels, ?oneDispute, ?output, ?ended, ?decided⟩
  case labels =>
    intro l
    rw [← h.labels, SortedMap.mem_keys_iff, SortedMap.mem_keys_iff]
    change (∃ a, (m.settle label goal stamp).pathState? l = some a) ↔ ∃ a, m.pathState? l = some a
    rw [hstate]
    by_cases hl : l = label
    · subst hl
      simp [hcurrent]
    · rw [if_neg hl]
  case oneDispute =>
    intro a b ha hb
    rw [hstate] at ha hb
    by_cases hgoal : goal = .disputed
    · -- the new dispute is the only one
      have honly := disputed_eq_of_next? h.oneDispute hcurrent hnext hfree (.inr hgoal)
      have hlabel : ∀ l, (if l = label then some goal else m.pathState? l) = some .disputed →
          l = label := by
        intro l hl
        by_contra hne
        rw [if_neg hne] at hl
        exact hne (honly l hl)
      rw [hlabel a ha, hlabel b hb]
    · have hbefore : ∀ l, (if l = label then some goal else m.pathState? l) = some .disputed →
          m.pathState? l = some .disputed := by
        intro l hl
        split at hl
        · exact absurd (Option.some.inj hl) hgoal
        · exact hl
      exact h.oneDispute a b (hbefore a ha) (hbefore b hb)
  case output =>
    intro l
    rw [hstate, settle_eq, h.closesAt_eq hcurrent hnext hfree]
    by_cases hgoal : goal = .closed
    · by_cases hl : l = label
      · simp [hgoal, hl]
      · simp [hgoal, hl, hunclosed, Ne.symm hl]
    · by_cases hl : l = label
      · simp [hgoal, hl, hnone]
      · simp [hgoal, hl, hnone, hunclosed]
  case ended =>
    rw [settle_eq, h.closesAt_eq hcurrent hnext hfree]
    by_cases hgoal : goal = .closed
    · simp [hgoal]
    · simpa [hgoal] using h.ended
  case decided =>
    rw [settle_eq, h.closesAt_eq hcurrent hnext hfree]
    by_cases hgoal : goal = .closed
    · simp [hgoal]
    · simp [hgoal, hnone]

end Settled

theorem Coherent.move (h : Coherent labels m) (hmove : Move m n) : Coherent labels n := by
  cases hmove with
  | @witness w n houtcome =>
    cases houtcome with
    | ignored hclosed => exact h
    | refused hopen hcheck => exact h.congr rfl rfl rfl rfl
    | collected hopen hadmitted hstep hprogram => exact h.congr rfl rfl rfl rfl
    | @authorized current goal keys step p hopen hadmitted hstep hprogram =>
      have haccepting : Coherent labels (m.accepting w keys step) := h.congr rfl rfl rfl rfl
      exact haccepting.settle hopen hadmitted.state hadmitted.admits hadmitted.uncontested _
  | tick htick =>
    cases htick with
    | skipped hopen htasks hdue hspan htarget => exact h.congr rfl rfl rfl rfl
    | @fired t r label goal step hopen htasks hdue hspan htarget hstep =>
      obtain ⟨-, hcurrent, hnext, hfree⟩ := target?_spec htarget
      have hlinked : Coherent labels (m.linked (m.firing t label).id t.due step) :=
        h.congr rfl rfl rfl rfl
      have hsettled := hlinked.settle hopen hcurrent hnext hfree t.due
      exact hsettled.congr rfl rfl rfl rfl
  | cleared => exact h.congr rfl rfl rfl rfl
  | expired hopen hidle hover =>
    unfold expire
    rw [if_pos ⟨hopen, hover⟩]
    exact ⟨h.labels, h.oneDispute, h.output, by simp, fun _ => rfl⟩

/-! ## The start -/

/-- Declaring paths adds them, open, to those there are. -/
theorem find?_of_declare {names : List String} {paths all : SortedMap String PathState}
    (h : names.foldlM MachineConfig.declare paths = .ok all) (l : String) :
    all.find? l = if l ∈ names then some .open else paths.find? l := by
  induction names generalizing paths with
  | nil =>
    cases h
    simp
  | cons a r ih =>
    rw [List.foldlM_cons] at h
    obtain ⟨next, hnext, h⟩ := bind_eq_ok_iff.1 h
    have hinsert : next = paths.insert a .open := (MachineConfig.declare_eq_ok_iff.1 hnext).2.2
    rw [ih h, hinsert, SortedMap.find?_insert]
    by_cases hr : l ∈ r <;> by_cases ha : l = a <;> simp [hr, ha]

theorem coherent_of_init {c : MachineConfig} (h : init c = .ok m) : Coherent c.pathnames m := by
  obtain ⟨paths, hpaths, -, rfl⟩ := init_eq_ok h
  have hfind : ∀ l, paths.find? l = if l ∈ c.pathnames then some .open else none := by
    intro l
    rw [find?_of_declare hpaths, SortedMap.find?_empty]
  have hopen : ∀ l state, paths.find? l = some state → state = .open := by
    intro l state hl
    rw [hfind] at hl
    split at hl
    · exact (Option.some.inj hl).symm
    · cases hl
  refine ⟨?_, ?_, ?_, ?_, ?_⟩
  · intro l
    rw [SortedMap.mem_keys_iff]
    simp [hfind]
  · intro a b ha
    cases hopen a _ ha
  · intro l
    constructor
    · intro houtput
      cases houtput
    · intro hl
      cases hopen l _ hl
  · simp
  · simp

/-! ## Calls on a machine -/

/-- One call on a machine that gives a new state: a witness is evaluated or applied, or the clock is
advanced. -/
inductive Call (m : Machine) : Machine → Prop where
  | eval {w : Witness} {n : Machine} (h : m.eval w = some n) : Call m n
  | apply {w : Witness} {n : Machine} (h : m.apply w = .ok n) : Call m n
  | run {stop : UInt64} {n : Machine} (h : m.run stop = some n) : Call m n

theorem eval_of_apply {w : Witness} (h : m.apply w = .ok n) : m.eval w = some n := by
  unfold eval
  rw [h]

theorem moves_of_call (h : Call m n) : Relation.ReflTransGen Move m n := by
  cases h with
  | @eval w n h => exact moves_of_accept (i := .witness w) h
  | @apply w n h => exact moves_of_accept (i := .witness w) (eval_of_apply h)
  | @run stop n h => exact moves_of_accept (i := .clock stop) h

theorem Coherent.calls (h : Coherent labels m) (hcalls : Relation.ReflTransGen Call m n) :
    Coherent labels n := by
  induction hcalls with
  | refl => exact h
  | tail _ hcall ih => exact moves_keep (fun _ _ => Coherent.move) (moves_of_call hcall) ih

theorem eq_of_call_of_closed (hclosed : m.closed = true) (h : Call m n) : n = m := by
  cases h with
  | @eval w n h => exact Option.some.inj (h.symm.trans (accept_of_closed hclosed (.witness w)))
  | @apply w n h => exact Except.ok.inj (h.symm.trans (if_pos hclosed))
  | @run stop n h => exact Option.some.inj (h.symm.trans (run_of_closed hclosed))

theorem eq_of_calls_of_closed (hclosed : m.closed = true) (h : Relation.ReflTransGen Call m n) :
    n = m := by
  induction h with
  | refl => rfl
  | tail _ hcall ih =>
    subst ih
    exact eq_of_call_of_closed hclosed hcall

/-! ## Settled paths -/

/-- The places where a call on `m` settles a path: `s` is the machine just before, with the link
already in its log. -/
inductive Settles (m : Machine) : Machine → String → PathState → Prop where
  | witness {w : Witness} {goal : PathState} {keys : SortedSet PublicKey} {s : Machine}
      (hopen : m.closed = false) (hcheck : m.check w = .ok (goal, keys))
      (hcommit : { m with error := none }.commit w.id w.stamp = some s)
      (hsatisfied :
        (Program.firstSatisfied m.programs w.method w.action w.path keys).isSome = true) :
      Settles m { s with store := record s.store w.path w.action keys } w.path goal
  | task {stop : UInt64} {a s : Machine} {t : Task} {r : List Task} {label : String}
      {goal : PathState} (hopen : m.closed = false) (hticks : Ticks stop { m with error := none } a)
      (hwaits : a.closed = false) (htasks : a.tasks = t :: r) (hdue : t.due ≤ stop)
      (hspan : t.due ≤ a.expiresAt) (htarget : a.target? t = some (label, goal))
      (hcommit : a.commit (a.firing t label).id t.due = some s) : Settles m s label goal

/-- The state that a path is settled from, by an admissible action that nothing keeps back. -/
theorem Coherent.of_settles {s : Machine} {goal : PathState} (h : Coherent labels m)
    (hsettles : Settles m s label goal) :
    Coherent labels s ∧ ∃ current action, s.pathState? label = some current ∧
      current.next? action = some goal ∧ s.contestedBy? action label = none := by
  cases hsettles with
  | @witness w goal keys s hopen hcheck hcommit hsatisfied =>
    obtain ⟨current, hadmitted⟩ := check_eq_ok_iff.1 hcheck
    obtain ⟨step, -, rfl⟩ := commit_eq_some_iff.1 hcommit
    exact ⟨h.congr rfl rfl rfl rfl, current, w.action, hadmitted.state, hadmitted.admits,
      hadmitted.uncontested⟩
  | @task stop a s t r label goal hopen hticks hwaits htasks hdue hspan htarget hcommit =>
    obtain ⟨-, hcurrent, hnext, hfree⟩ := target?_spec htarget
    obtain ⟨step, -, rfl⟩ := commit_eq_some_iff.1 hcommit
    have hcleared : Coherent labels { m with error := none } := h.congr rfl rfl rfl rfl
    have ha : Coherent labels a :=
      moves_keep (fun _ _ => Coherent.move) (moves_of_ticks hticks) hcleared
    exact ⟨ha.congr rfl rfl rfl rfl, .open, t.action, hcurrent, hnext, hfree⟩

/-- A path that is closed finds no other one in dispute, so it ends the machine as its outcome. -/
theorem Coherent.settles_closed {s : Machine} (h : Coherent labels m)
    (hsettles : Settles m s label .closed) (stamp : UInt64) :
    ({ s with paths := s.paths.insert label .closed } : Machine).disputedOther? label = none ∧
      (s.settle label .closed stamp).closed = true ∧
        (s.settle label .closed stamp).output = some label := by
  obtain ⟨hs, current, action, hcurrent, hnext, hfree⟩ := h.of_settles hsettles
  have hcloses : s.closesAt label .closed = true := hs.closesAt_eq hcurrent hnext hfree
  have hnone := hcloses
  unfold closesAt at hnone
  rw [Bool.and_eq_true, Option.isNone_iff_eq_none] at hnone
  refine ⟨hnone.2, ?_, ?_⟩
  · rw [settle_eq, hcloses]
    rfl
  · rw [settle_eq, hcloses]
    rfl

/-- A tick that changes a path settles it. -/
theorem settles_of_ticks {stop : UInt64} {a : Machine} (hopen : m.closed = false)
    (hticks : Ticks stop { m with error := none } a)
    (hchange : a.pathState? label ≠ m.pathState? label) : ∃ s goal, Settles m s label goal := by
  induction hticks with
  | refl => exact absurd rfl hchange
  | @tail b n hticks htick ih =>
    by_cases hbefore : b.pathState? label = m.pathState? label
    · cases htick with
      | skipped hwaits htasks hdue hspan htarget => exact absurd hbefore hchange
      | @fired t r l goal step hwaits htasks hdue hspan htarget hstep =>
        have hlabel : label = l := by
          by_contra hne
          have hsame := pathState?_settle (b.linked (b.firing t l).id t.due step) l label goal t.due
          rw [if_neg hne] at hsame
          exact hchange (hsame.trans hbefore)
        subst hlabel
        exact ⟨_, goal, .task hopen hticks hwaits htasks hdue hspan htarget
          (commit_eq_some_iff.2 ⟨step, hstep, rfl⟩)⟩
    · exact ih hbefore

theorem settles_of_outcome {w : Witness} (h : Outcome m w n)
    (hchange : n.pathState? label ≠ m.pathState? label) : ∃ s goal, Settles m s label goal := by
  cases h with
  | ignored hclosed => exact absurd rfl hchange
  | refused hopen hcheck => exact absurd rfl hchange
  | collected hopen hadmitted hstep hprogram => exact absurd rfl hchange
  | @authorized current goal keys step p hopen hadmitted hstep hprogram =>
    have hlabel : label = w.path := by
      by_contra hne
      have hsame := pathState?_settle (m.accepting w keys step) w.path label goal w.stamp
      rw [if_neg hne] at hsame
      exact hchange hsame
    subst hlabel
    have hcommit : { m with error := none }.commit w.id w.stamp
        = some ({ m with error := none }.linked w.id w.stamp step) :=
      commit_eq_some_iff.2 ⟨step, hstep, rfl⟩
    exact ⟨_, goal, .witness hopen (check_eq_ok_iff.2 ⟨current, hadmitted⟩) hcommit
      (Option.isSome_iff_exists.2 ⟨p, hprogram⟩)⟩

/-- A call changes a path nowhere but where it settles it. -/
theorem settles_of_call (h : Call m n) (hchange : n.pathState? label ≠ m.pathState? label) :
    ∃ s goal, Settles m s label goal := by
  cases h with
  | @eval w n h => exact settles_of_outcome (outcome_of_eval h) hchange
  | @apply w n h => exact settles_of_outcome (outcome_of_eval (eval_of_apply h)) hchange
  | @run stop n h =>
    by_cases hclosed : m.closed = true
    · rw [run_of_closed hclosed] at h
      cases h
      exact absurd rfl hchange
    · have hopen : m.closed = false := by simpa using hclosed
      obtain ⟨s, hticks, -, rfl⟩ := ticks_of_run hopen h
      obtain ⟨closed, closedAt, updatedAt, hexpired⟩ := expire_eq s stop
      rw [hexpired] at hchange
      exact settles_of_ticks hopen hticks hchange

/-! ## All states that calls lead to -/

/-- Wherever calls lead from the start, the paths, the outcome and the end agree. At most one path
ever closes, none while the machine is open, and a closed machine is left as it is by every call. A
path that closes ends the machine then and there, for no other one is in dispute. -/
theorem coherent_of_reached {c : MachineConfig} {m₀ : Machine} (hinit : init c = .ok m₀)
    (hreached : Relation.ReflTransGen Call m₀ m) :
    Coherent c.pathnames m ∧
      (m.closed = false → ∀ l, m.pathState? l ≠ some .closed) ∧
        (∀ n a b, Relation.ReflTransGen Call m n → m.pathState? a = some .closed →
          n.pathState? b = some .closed → a = b) ∧
          (m.closed = true →
            (∀ w, m.eval w = some m ∧ m.apply w = .ok m) ∧ ∀ stop, m.run stop = some m) ∧
            (∀ n l, Call m n → m.pathState? l ≠ some .closed → n.pathState? l = some .closed →
              n.closed = true ∧ n.output = some l) ∧
              ∀ s l stamp, Settles m s l .closed →
                ({ s with paths := s.paths.insert l .closed } : Machine).disputedOther? l = none ∧
                  (s.settle l .closed stamp).closed = true ∧
                    (s.settle l .closed stamp).output = some l := by
  have hm : Coherent c.pathnames m := (coherent_of_init hinit).calls hreached
  refine ⟨hm, ?_, ?_, ?_, ?_, ?_⟩
  · intro hopen l hl
    have hclosed := hm.closed_of_path hl
    rw [hopen] at hclosed
    cases hclosed
  · intro n a b hcalls ha hb
    have hsame : n = m := eq_of_calls_of_closed (hm.closed_of_path ha) hcalls
    subst hsame
    exact hm.closed_eq ha hb
  · intro hclosed
    refine ⟨fun w => ⟨accept_of_closed hclosed (.witness w), if_pos hclosed⟩, ?_⟩
    intro stop
    exact run_of_closed hclosed
  · intro n l hcall hbefore hafter
    have hn : Coherent c.pathnames n := hm.calls (.single hcall)
    exact ⟨hn.closed_of_path hafter, (hn.output l).2 hafter⟩
  · intro s l stamp hsettles
    exact hm.settles_closed hsettles stamp

/-- Two paths, of which the clock closes one at 510. -/
def timedDeposit : MachineConfig where
  vmid := .zero
  activeAt := 500
  expiresAt := 1500
  engine := engineLabel
  pathnames := ["refund", "deposit"]
  programs := []
  schedule := [⟨10, .close, .any⟩]

/-- The deposit comes out of the clock's close, and the refund stays as it was. -/
theorem timedDeposit_coherent :
    ∃ m₀ m, init timedDeposit = .ok m₀ ∧ Relation.ReflTransGen Call m₀ m ∧
      m.output = some "deposit" ∧ m.pathState? "refund" = some .open ∧
        Coherent ["refund", "deposit"] m := by
  have hrun : (((init timedDeposit).toOption.bind fun m₀ => (m₀.run 600).map fun m => (m₀, m)).any
      fun (_, m) => decide (m.output = some "deposit") &&
        decide (m.pathState? "refund" = some .open)) = true := by decide +kernel
  obtain ⟨⟨m₀, m⟩, hrun, hends⟩ := Option.any_eq_true _ _ |>.1 hrun
  simp only [Option.bind_eq_some_iff, Option.map_eq_some_iff, toOption_eq_some_iff,
    Prod.mk.injEq] at hrun
  obtain ⟨_, hinit, _, hclock, rfl, rfl⟩ := hrun
  simp only [Bool.and_eq_true, decide_eq_true_eq] at hends
  have hreached := Relation.ReflTransGen.single (Call.run hclock)
  exact ⟨_, _, hinit, hreached, hends.1, hends.2, (coherent_of_reached hinit hreached).1⟩

end Machine

end JointEscrow
