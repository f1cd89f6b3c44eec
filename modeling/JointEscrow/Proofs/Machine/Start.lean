import JointEscrow.Proofs.Machine.Replay

/-!
# Configurations that a machine starts from

A machine starts from a configuration exactly when its labels are distinct and written, it has a
span, and its programs and schedule are valid on the labels and within the span
(`exists_init_iff`). Then no time of the schedule leaves the span.
-/

namespace JointEscrow

namespace MachineConfig

variable {c : MachineConfig} {label : String} {names : List String}
  {paths next : SortedMap String PathState}

/-! ## Declared paths -/

theorem declare_eq_ok_iff :
    declare paths label = .ok next ↔
      label.isEmpty = false ∧ paths.find? label = none ∧ next = paths.insert label .open := by
  unfold declare
  by_cases hempty : label.isEmpty = true
  · simp [hempty]
  · rw [if_neg hempty]
    cases hfound : paths.find? label with
    | some state => simp
    | none => simpa [hempty] using eq_comm

/-- Labels can be declared one after the other when each is written, and none is there before. -/
theorem exists_declared_iff :
    (∃ all, names.foldlM declare paths = .ok all) ↔
      names.Nodup ∧ ∀ l ∈ names, l.isEmpty = false ∧ paths.find? l = none := by
  induction names generalizing paths with
  | nil =>
    constructor
    · intro _
      exact ⟨.nil, nofun⟩
    · intro _
      exact ⟨paths, rfl⟩
  | cons a r ih =>
    have hinsert : ∀ l, (paths.insert a .open).find? l = none ↔ l ≠ a ∧ paths.find? l = none := by
      intro l
      rw [SortedMap.find?_insert]
      by_cases hl : l = a <;> simp [hl]
    rw [List.foldlM_cons, List.nodup_cons, List.forall_mem_cons]
    simp only [bind_eq_ok_iff, declare_eq_ok_iff]
    constructor
    · rintro ⟨all, next, ⟨hwritten, hnew, rfl⟩, hall⟩
      obtain ⟨hnodup, hrest⟩ := ih.1 ⟨all, hall⟩
      simp only [hinsert] at hrest
      refine ⟨⟨fun ha => (hrest a ha).2.1 rfl, hnodup⟩, ⟨hwritten, hnew⟩, ?_⟩
      intro l hl
      exact ⟨(hrest l hl).1, (hrest l hl).2.2⟩
    · rintro ⟨⟨ha, hnodup⟩, ⟨hwritten, hnew⟩, hrest⟩
      have hlater : ∀ l ∈ r, l.isEmpty = false ∧ (paths.insert a .open).find? l = none := by
        intro l hl
        obtain ⟨hl', hfree⟩ := hrest l hl
        exact ⟨hl', (hinsert l).2 ⟨fun heq => ha (heq ▸ hl), hfree⟩⟩
      obtain ⟨all, hall⟩ := ih.2 ⟨hnodup, hlater⟩
      exact ⟨all, _, ⟨hwritten, hnew, rfl⟩, hall⟩

/-! ## The start -/

/-- What a machine asks of the configuration that it starts from. -/
structure Startable (c : MachineConfig) : Prop where
  labelled : c.pathnames ≠ []
  distinct : c.pathnames.Nodup
  written : ∀ l ∈ c.pathnames, l.isEmpty = false
  span : c.activeAt < c.expiresAt
  programs : ∀ p ∈ c.programs, p.validate c.pathnames = .ok ()
  schedule : ∀ e ∈ c.schedule, e.validate c.pathnames c.duration = .ok ()

theorem exists_init_iff : (∃ m, Machine.init c = .ok m) ↔ c.Startable := by
  have hpaths := @exists_declared_iff c.pathnames .empty
  unfold Machine.init
  simp only [check_bind_eq_ok_iff, bind_eq_ok_iff (α := SortedMap String PathState),
    ensure_eq_ok_iff, mapError_eq_ok_iff, forM_eq_ok_iff, Bool.not_eq_true',
    List.isEmpty_eq_false_iff, decide_eq_true_eq, pure_eq_ok_iff]
  constructor
  · rintro ⟨m, hlabelled, all, hall, hspan, hprograms, hschedule, -⟩
    obtain ⟨hdistinct, hwritten⟩ := hpaths.1 ⟨all, hall⟩
    exact ⟨hlabelled, hdistinct, fun l hl => (hwritten l hl).1, hspan, hprograms, hschedule⟩
  · intro h
    obtain ⟨all, hall⟩ :=
      hpaths.2 ⟨h.distinct, fun l hl => ⟨h.written l hl, SortedMap.find?_empty l⟩⟩
    exact ⟨_, h.labelled, all, hall, h.span, h.programs, h.schedule, rfl⟩

/-- A scheduled time lies within the span of the machine, and it is the exact sum. -/
theorem Startable.due_of_mem (h : c.Startable) {e : ScheduleEntry} (he : e ∈ c.schedule) :
    (c.activeAt + e.stamp).toNat = c.activeAt.toNat + e.stamp.toNat ∧
      c.activeAt.toNat + e.stamp.toNat ≤ c.expiresAt.toNat := by
  have hstamp : e.stamp ≤ c.duration := by
    have hvalid := (check_bind_eq_ok_iff.1 (h.schedule e he)).1
    rwa [ensure_eq_ok_iff, decide_eq_true_eq] at hvalid
  have hduration : c.duration.toNat = c.expiresAt.toNat - c.activeAt.toNat :=
    UInt64.toNat_sub_of_le _ _ (UInt64.le_of_lt h.span)
  have hspan := UInt64.lt_iff_toNat_lt.1 h.span
  have hle := UInt64.le_iff_toNat_le.1 hstamp
  have hsize := c.expiresAt.toNat_lt
  rw [UInt64.toNat_add, Nat.mod_eq_of_lt (by omega)]
  omega

theorem Startable.due_within (h : c.Startable) {t : Task} (ht : t ∈ c.tasks) :
    c.activeAt ≤ t.due ∧ t.due ≤ c.expiresAt := by
  obtain ⟨e, he, rfl⟩ := Machine.mem_tasks ht
  obtain ⟨hexact, hlate⟩ := h.due_of_mem he
  rw [UInt64.le_iff_toNat_le, UInt64.le_iff_toNat_le, hexact]
  omega

end MachineConfig

end JointEscrow
