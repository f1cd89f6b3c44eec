import JointEscrow.Machine.Init
import JointEscrow.Proofs.Totals

/-!
# Well-formed proposals

What a proposal should be, said without its checks: amounts are added as whole numbers, labels and
actions are looked for among those that there are, and nothing depends on the order of a list. The
checks accept exactly these proposals (`validate_iff_wellFormed`), although they add 64-bit amounts
label by label and stop at the first sum that does not fit.
-/

namespace JointEscrow

/-! ## Patterns, programs, schedules -/

/-- Every token of the pattern is the label of an entry. -/
def Pattern.Names (p : Pattern) (paths : List PathEntry) : Prop :=
  ∀ t ∈ p.literals, ∃ e ∈ paths, e.path = t

/-- A program on known actions and declared labels that some of its members can satisfy, or if it
lists no members some keys. -/
structure ProgramTerms.WellFormed (q : ProgramTerms) (paths : List PathEntry) : Prop where
  actions : ∀ t ∈ q.actions.literals, ∃ a : Action, a.name = t
  labels : q.paths.Names paths
  members : q.members.Nodup
  positive : 1 ≤ q.threshold.toNat
  attainable : q.members ≠ [] → q.threshold.toNat ≤ q.members.length

/-- An entry on declared labels that is due within the duration. -/
structure ScheduleEntry.WellFormed (e : ScheduleEntry) (paths : List PathEntry)
    (duration : UInt64) : Prop where
  due : e.stamp ≤ duration
  labels : e.path.Names paths

section Checks

variable {paths : List PathEntry}

theorem Pattern.checkLabels_eq_ok_iff {p : Pattern} :
    p.checkLabels (pathLabels paths) = .ok () ↔ p.Names paths := by
  unfold checkLabels Names
  rw [forM_eq_ok_iff]
  simp only [ensure_eq_ok_iff, decide_eq_true_eq, mem_pathLabels_iff]

theorem Action.isSome_ofName?_iff {t : String} :
    (ofName? t).isSome = true ↔ ∃ a : Action, a.name = t := by
  have hall : ∀ a : Action, a ∈ all := by
    intro a
    cases a <;> decide
  unfold ofName?
  rw [List.find?_isSome]
  constructor
  · rintro ⟨a, -, ha⟩
    exact ⟨a, of_decide_eq_true ha⟩
  · rintro ⟨a, ha⟩
    exact ⟨a, hall a, decide_eq_true ha⟩

theorem ProgramTerms.validate_eq_ok_iff {q : ProgramTerms} :
    q.validate (pathLabels paths) = .ok () ↔ q.WellFormed paths := by
  unfold validate
  rw [check_bind_eq_ok_iff, check_bind_eq_ok_iff, forM_eq_ok_iff, Pattern.checkLabels_eq_ok_iff]
  simp only [ensure_eq_ok_iff, Action.isSome_ofName?_iff]
  cases hrepeat : firstRepeat? q.members with
  | some key =>
    have hrepeated : ¬ q.members.Nodup := by
      rw [← firstRepeat?_eq_none_iff, hrepeat]
      exact Option.some_ne_none key
    constructor
    · rintro ⟨-, -, h⟩
      cases h
    · intro h
      exact absurd h.members hrepeated
  | none =>
    have hmembers : q.members.Nodup := firstRepeat?_eq_none_iff.1 hrepeat
    have hthreshold : q.threshold ≠ 0 ↔ 1 ≤ q.threshold.toNat := by
      rw [Nat.one_le_iff_ne_zero, Ne, ← UInt32.toNat_inj]
      rfl
    simp only [ensure_eq_ok_iff, Bool.and_eq_true, Bool.or_eq_true, decide_eq_true_eq,
      List.isEmpty_iff, hthreshold]
    constructor
    · rintro ⟨hactions, hlabels, hpositive, hreach⟩
      refine ⟨hactions, hlabels, hmembers, hpositive, fun hlisted => ?_⟩
      exact hreach.resolve_left hlisted
    · intro h
      refine ⟨h.actions, h.labels, h.positive, ?_⟩
      exact (em (q.members = [])).imp_right h.attainable

theorem ScheduleEntry.validate_eq_ok_iff {e : ScheduleEntry} {duration : UInt64} :
    e.validate (pathLabels paths) duration = .ok () ↔ e.WellFormed paths duration := by
  unfold validate
  rw [check_bind_eq_ok_iff, ensure_eq_ok_iff, decide_eq_true_eq, Pattern.checkLabels_eq_ok_iff]
  constructor
  · rintro ⟨hdue, hlabels⟩
    exact ⟨hdue, hlabels⟩
  · intro h
    exact ⟨h.due, h.labels⟩

end Checks

/-! ## Totals -/

theorem exists_totalOf_iff (values : List UInt64) (field : String) :
    (∃ total, totalOf values field = .ok total) ↔ exactTotal values < UInt64.size := by
  constructor
  · rintro ⟨total, htotal⟩
    rw [totalOf_eq_ok_iff.1 htotal]
    exact total.toNat_lt_size
  · intro hfits
    refine ⟨.ofNat (exactTotal values), totalOf_eq_ok_iff.2 ?_⟩
    exact (UInt64.toNat_ofNat_of_lt hfits).symm

/-- What a label pays on its own path, together with the payments. -/
def Proposal.payout (p : Proposal) (label : String) : Nat :=
  exactTotal ((entriesOf label p.paths).map (·.value)) + exactTotal (p.payments.map (·.value))

/-- With a path declared no partial sum can leave the range unnoticed: each is at most a payout. -/
theorem checkTotals_eq_ok_iff {p : Proposal} (hpaths : p.paths ≠ []) :
    p.checkTotals = .ok () ↔ ∀ e ∈ p.paths, p.payout e.path = p.value.toNat := by
  constructor
  · intro h e he
    exact total_of_checkTotals h (mem_pathLabels_iff.2 ⟨e, he, rfl⟩)
  · intro h
    have hbalance : ∀ label ∈ pathLabels p.paths, p.payout label = p.value.toNat := by
      intro label hlabel
      obtain ⟨e, he, rfl⟩ := mem_pathLabels_iff.1 hlabel
      exact h e he
    have hsize := p.value.toNat_lt_size
    obtain ⟨payments, hpayments⟩ : ∃ total, paymentTotal p.payments = .ok total := by
      obtain ⟨e, he⟩ := List.exists_mem_of_ne_nil _ hpaths
      have hpaid := h e he
      unfold Proposal.payout at hpaid
      apply (exists_totalOf_iff _ _).2
      omega
    obtain ⟨totals, htotals⟩ : ∃ totals, pathTotals p.paths = .ok totals := by
      apply exists_mapM_iff.2
      intro label hlabel
      have hpaid := hbalance label hlabel
      unfold Proposal.payout at hpaid
      obtain ⟨total, htotal⟩ :=
        (exists_totalOf_iff ((entriesOf label p.paths).map (·.value)) label).2 (by omega)
      exact ⟨(label, total), bind_eq_ok_iff.2 ⟨total, htotal, rfl⟩⟩
    refine bind_eq_ok_iff.2 ⟨payments, hpayments, bind_eq_ok_iff.2 ⟨totals, htotals, ?_⟩⟩
    rw [forM_eq_ok_iff]
    rintro ⟨label, total⟩ hmem
    obtain ⟨_, hlabel, hentry⟩ := exists_of_mem_mapM htotals hmem
    obtain ⟨_, hsum, hentry⟩ := bind_eq_ok_iff.1 hentry
    cases pure_eq_ok_iff.1 hentry
    have hpaid := hbalance label hlabel
    unfold Proposal.payout at hpaid
    rw [totalOf_eq_ok_iff.1 hsum, totalOf_eq_ok_iff.1 hpayments] at hpaid
    simp [addChecked_eq_some_iff.2 hpaid]

/-! ## Proposals -/

/-- A title to be seen, positive amounts, a path, the same value on every path, and programs and a
schedule that fit the paths. -/
structure Proposal.WellFormed (p : Proposal) : Prop where
  title : ∃ c ∈ p.title.toList, Text.isBlank c = false
  value : 0 < p.value
  duration : 0 < p.duration
  paths : p.paths ≠ []
  entries : ∀ e ∈ p.paths, e.path ≠ "" ∧ 0 < e.value
  payments : ∀ q ∈ p.payments, 0 < q.value
  balance : ∀ e ∈ p.paths, p.payout e.path = p.value.toNat
  programs : ∀ q ∈ p.programs, q.WellFormed p.paths
  schedule : ∀ e ∈ p.schedule, e.WellFormed p.paths p.duration

theorem Payment.validate_eq_ok_iff {q : Payment} : q.validate = .ok () ↔ 0 < q.value := by
  unfold validate
  rw [ensure_eq_ok_iff, decide_eq_true_eq, UInt64.pos_iff_ne_zero]

theorem Text.allBlank_eq_false_iff {s : String} :
    allBlank s = false ↔ ∃ c ∈ s.toList, isBlank c = false := by
  unfold allBlank
  rw [List.all_eq_false]
  simp only [Bool.not_eq_true]

theorem Proposal.validate_iff_wellFormed {p : Proposal} :
    p.validate = .ok () ↔ p.WellFormed := by
  rw [validate_eq_ok_iff, Text.allBlank_eq_false_iff, ← UInt64.pos_iff_ne_zero,
    ← UInt64.pos_iff_ne_zero]
  simp only [PathEntry.validate_eq_ok_iff, Payment.validate_eq_ok_iff,
    ProgramTerms.validate_eq_ok_iff, ScheduleEntry.validate_eq_ok_iff, ← UInt64.pos_iff_ne_zero,
    String.isEmpty_eq_false_iff]
  constructor
  · rintro ⟨htitle, hvalue, hduration, hpaths, hentries, hpayments, htotals, hprograms, hschedule⟩
    exact ⟨htitle, hvalue, hduration, hpaths, hentries, hpayments,
      (checkTotals_eq_ok_iff hpaths).1 htotals, hprograms, hschedule⟩
  · intro h
    exact ⟨h.title, h.value, h.duration, h.paths, h.entries, h.payments,
      (checkTotals_eq_ok_iff h.paths).2 h.balance, h.programs, h.schedule⟩

/-! ## The order of the lists -/

section Order

variable {paths paths' : List PathEntry}

theorem Pattern.Names.perm {t : Pattern} (h : t.Names paths) (hpaths : paths.Perm paths') :
    t.Names paths' := by
  intro token htoken
  obtain ⟨e, he, hlabel⟩ := h token htoken
  exact ⟨e, hpaths.subset he, hlabel⟩

theorem ProgramTerms.WellFormed.perm {q : ProgramTerms} (h : q.WellFormed paths)
    (hpaths : paths.Perm paths') : q.WellFormed paths' :=
  { h with labels := h.labels.perm hpaths }

theorem ScheduleEntry.WellFormed.perm {e : ScheduleEntry} {duration : UInt64}
    (h : e.WellFormed paths duration) (hpaths : paths.Perm paths') : e.WellFormed paths' duration :=
  { h with labels := h.labels.perm hpaths }

theorem Proposal.WellFormed.perm {p : Proposal} (h : p.WellFormed) {payments : List Payment}
    {programs : List ProgramTerms} {schedule : List ScheduleEntry} (hpaths : p.paths.Perm paths)
    (hpayments : p.payments.Perm payments) (hprograms : p.programs.Perm programs)
    (hschedule : p.schedule.Perm schedule) :
    { p with paths, payments, programs, schedule : Proposal }.WellFormed where
  title := h.title
  value := h.value
  duration := h.duration
  paths := fun hnil => h.paths (List.Perm.eq_nil (hnil ▸ hpaths))
  entries := fun e he => h.entries e (hpaths.symm.subset he)
  payments := fun q hq => h.payments q (hpayments.symm.subset hq)
  balance := by
    intro e he
    have hentries : exactTotal ((entriesOf e.path paths).map (·.value)) =
        exactTotal ((entriesOf e.path p.paths).map (·.value)) :=
      exactTotal_perm ((hpaths.symm.filter _).map _)
    have hpaid : exactTotal (payments.map (·.value)) = exactTotal (p.payments.map (·.value)) :=
      exactTotal_perm (hpayments.symm.map _)
    have hbalance := h.balance e (hpaths.symm.subset he)
    unfold payout at hbalance ⊢
    rw [hentries, hpaid, hbalance]
  programs := fun q hq => (h.programs q (hprograms.symm.subset hq)).perm hpaths
  schedule := fun e he => (h.schedule e (hschedule.symm.subset he)).perm hpaths

end Order

/-! ## The engine -/

/-- The engine runs every method that there is, so it supports each program with valid terms. -/
theorem ProgramTerms.checkSupported_eq_validate (q : ProgramTerms) (labels : List String) :
    q.checkSupported labels = q.validate labels := by
  have hknown : q.method ∈ Method.all := by
    cases q.method
    exact List.mem_singleton.2 rfl
  unfold checkSupported
  rw [decide_eq_true hknown]
  rfl

/-- The checks accept exactly the well-formed proposals, in whatever order their lists stand, and
the engine runs each program of a proposal that they accept. -/
theorem Proposal.accepts_exactly_wellFormed (p : Proposal) :
    (p.validate = .ok () ↔ p.WellFormed) ∧
      (∀ (paths : List PathEntry) (payments : List Payment) (programs : List ProgramTerms)
        (schedule : List ScheduleEntry), p.paths.Perm paths → p.payments.Perm payments →
          p.programs.Perm programs → p.schedule.Perm schedule →
            ({ p with paths, payments, programs, schedule : Proposal }.validate = .ok () ↔
              p.validate = .ok ())) ∧
        (p.validate = .ok () →
          ∀ q ∈ p.programs, q.checkSupported (pathLabels p.paths) = .ok ()) := by
  refine ⟨validate_iff_wellFormed, ?_, ?_⟩
  · intro paths payments programs schedule hpaths hpayments hprograms hschedule
    rw [validate_iff_wellFormed, validate_iff_wellFormed]
    constructor
    · intro h
      exact h.perm hpaths.symm hpayments.symm hprograms.symm hschedule.symm
    · intro h
      exact h.perm hpaths hpayments hprograms hschedule
  · intro h q hq
    rw [ProgramTerms.checkSupported_eq_validate, ProgramTerms.validate_eq_ok_iff]
    exact (validate_iff_wellFormed.1 h).programs q hq

/-- A stake on either of two paths, shared on the first, with two payments on both, a program for
both parties together and one for any key. -/
def sharedStake : Proposal where
  title := "stake"
  content := ""
  createdAt := 0
  deadline := none
  effective := none
  duration := 60
  feerate := none
  moderator := none
  network := .regtest
  paths := [⟨"draw", 500, "alice"⟩, ⟨"win", 900, "alice"⟩, ⟨"draw", 400, "bob"⟩]
  payments := [⟨60, "judge"⟩, ⟨40, "host"⟩]
  programs := [⟨.endorse, .tokens ["close"], .any, 2,
      [⟨Vector.replicate 32 1⟩, ⟨Vector.replicate 32 2⟩]⟩,
    ⟨.endorse, .any, .tokens ["draw", "win"], 1, []⟩]
  schedule := [⟨60, .close, .tokens ["draw"]⟩, ⟨0, .lock, .any⟩]
  value := 1000
  version := 1

theorem sharedStake_wellFormed :
    sharedStake.WellFormed ∧
      { sharedStake with
          paths := sharedStake.paths.reverse
          payments := sharedStake.payments.reverse
          programs := sharedStake.programs.reverse
          schedule := sharedStake.schedule.reverse : Proposal }.validate = .ok () ∧
        ∀ q ∈ sharedStake.programs, q.checkSupported (pathLabels sharedStake.paths) = .ok () := by
  have hvalid : sharedStake.validate = .ok () := by decide +kernel
  obtain ⟨hexact, horder, hsupported⟩ := Proposal.accepts_exactly_wellFormed sharedStake
  refine ⟨hexact.1 hvalid, ?_, hsupported hvalid⟩
  exact (horder _ _ _ _ (List.reverse_perm _).symm (List.reverse_perm _).symm
    (List.reverse_perm _).symm (List.reverse_perm _).symm).2 hvalid

end JointEscrow
