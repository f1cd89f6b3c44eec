import JointEscrow.Proofs.Contract.AuditSoundness
import Mathlib.Tactic.MkIffOfInductiveProp

/-!
# Where the audit halts

An audit is to refuse a record that does not hold together, whatever is in it. Two of its sums are
exact, though, and halt when they leave the 64-bit range: the step of a link counted from the first
one, and the end of the machine's span. Here is what a record must look like for that
(`audit_halts_iff`). All other figures of the audit are cut off at the largest amount, and a log
that has to start at step zero has no step too large.
-/

namespace JointEscrow

section Halts

variable {ε ε' α β : Type}

theorem addOrHalt_eq_overflow_iff {a b : UInt64} :
    (addOrHalt a b : Except (Halt ε) UInt64) = .error .overflow ↔
      UInt64.size ≤ a.toNat + b.toNat := by
  unfold addOrHalt addChecked
  by_cases hfits : a.toNat + b.toNat < UInt64.size
  · simp [hfits]
  · simp [hfits, Nat.le_of_not_lt hfits]

/-- A step that can fail for a cause only halts where what comes after it does. -/
theorem cause_bind_eq_overflow_iff {x : Except ε α} {g : ε → ε'}
    {f : α → Except (Halt ε') β} :
    (x.mapError (fun e => Halt.cause (g e)) >>= f) = .error .overflow ↔
      ∃ a, x = .ok a ∧ f a = .error .overflow := by
  cases x with
  | error e => simp [Except.mapError, bind, Except.bind]
  | ok a => simp [Except.mapError, bind, Except.bind]

theorem check_bind_eq_overflow_iff {x : Except ε Unit} {f : Unit → Except (Halt ε) β} :
    (x.mapError .cause >>= f) = .error .overflow ↔ x = .ok () ∧ f () = .error .overflow := by
  constructor
  · intro h
    obtain ⟨⟨⟩, hx, hf⟩ := cause_bind_eq_overflow_iff.1 h
    exact ⟨hx, hf⟩
  · rintro ⟨hx, hf⟩
    exact cause_bind_eq_overflow_iff.2 ⟨(), hx, hf⟩

theorem ensure_bind_eq_overflow_iff {ok : Bool} {e : ε} {f : Unit → Except (Halt ε) β} :
    (ensure ok (.cause e) >>= f) = .error .overflow ↔ ok = true ∧ f () = .error .overflow := by
  cases ok with
  | false => simp [ensure, bind, Except.bind]
  | true => simp [ensure, bind, Except.bind]

theorem ensure_ne_overflow {ok : Bool} {e : ε} :
    (ensure ok (.cause e) : Except (Halt ε) Unit) ≠ .error .overflow := by
  cases ok with
  | false => simp [ensure]
  | true => simp [ensure]

theorem cause_ne_overflow {x : Except ε α} :
    (x.mapError .cause : Except (Halt ε) α) ≠ .error .overflow := by
  cases x with
  | error e => simp [Except.mapError]
  | ok a => simp [Except.mapError]

end Halts

namespace Machine

variable {m : Machine}

/-! ## The log -/

theorem followLinks_cons_eq_overflow_iff {first : UInt64} {i : Nat} {head : Digest} {link : Commit}
    {links : List Commit} :
    followLinks first i head (link :: links) = .error .overflow ↔
      UInt64.size ≤ first.toNat + (UInt64.ofNat i).toNat ∨
        first.toNat + (UInt64.ofNat i).toNat = link.step.toNat ∧ link.priorHead = head ∧
          followLinks first (i + 1) (.chain head link.wid) links = .error .overflow := by
  rw [followLinks, bind_eq_error_iff, addOrHalt_eq_overflow_iff]
  simp only [addOrHalt_eq_ok_iff, ensure_bind_eq_overflow_iff, decide_eq_true_eq]
  constructor
  · rintro (hover | ⟨expected, hexpected, rfl, hprior, hrest⟩)
    · exact .inl hover
    · exact .inr ⟨hexpected, hprior, hrest⟩
  · rintro (hover | ⟨hstep, hprior, hrest⟩)
    · exact .inl hover
    · exact .inr ⟨link.step, hstep, rfl, hprior, hrest⟩

/-- Following links halts at a place that has no number left, when those before it are in order. -/
theorem followLinks_eq_overflow_iff {first : UInt64} {i : Nat} {head : Digest}
    {links : List Commit} :
    followLinks first i head links = .error .overflow ↔
      ∃ k last, k < links.length ∧ followLinks first i head (links.take k) = .ok last ∧
        UInt64.size ≤ first.toNat + (UInt64.ofNat (i + k)).toNat := by
  induction links generalizing i head with
  | nil =>
    constructor
    · intro h
      cases h
    · rintro ⟨k, last, hk, -⟩
      exact absurd hk (Nat.not_lt_zero k)
  | cons link links ih =>
    rw [followLinks_cons_eq_overflow_iff, ih]
    have hshift : ∀ k, i + 1 + k = i + (k + 1) := by omega
    simp only [hshift]
    constructor
    · rintro (hover | ⟨hstep, hprior, k, last, hk, hlinks, hover⟩)
      · exact ⟨0, head, Nat.zero_lt_succ _, rfl, hover⟩
      · refine ⟨k + 1, last, Nat.succ_lt_succ hk, ?_, hover⟩
        rw [List.take_succ_cons]
        exact followLinks_cons_eq_ok_iff.2 ⟨hstep, hprior, hlinks⟩
    · rintro ⟨k, last, hk, hlinks, hover⟩
      cases k with
      | zero => exact .inl hover
      | succ k =>
        rw [List.take_succ_cons] at hlinks
        obtain ⟨hstep, hprior, hrest⟩ := followLinks_cons_eq_ok_iff.1 hlinks
        exact .inr ⟨hstep, hprior, k, last, Nat.lt_of_succ_lt_succ hk, hrest, hover⟩

/-- Some links from the first one on are in order, and the step after them is past the last number.
If these are all links, they lead to the machine's head as well. -/
def StepsRunOut (m : Machine) : Prop :=
  ∃ first rest k last, m.commits = first :: rest ∧ k ≤ m.commits.length ∧
    followLinks first.step 0 first.priorHead (m.commits.take k) = .ok last ∧
      UInt64.size ≤ first.step.toNat + (UInt64.ofNat k).toNat ∧
        (k = m.commits.length → last = m.head)

theorem verifyLog_eq_overflow_iff : m.verifyLog = .error .overflow ↔ m.StepsRunOut := by
  unfold verifyLog StepsRunOut
  cases m.commits with
  | nil =>
    constructor
    · intro h
      exact absurd h ensure_ne_overflow
    · rintro ⟨first, rest, k, last, hcommits, -⟩
      cases hcommits
  | cons first rest =>
    simp only [bind_eq_error_iff (α := Digest), ensure_bind_eq_overflow_iff, decide_eq_true_eq,
      followLinks_eq_overflow_iff, Nat.zero_add, bind_eq_error_iff (α := UInt64),
      addOrHalt_eq_overflow_iff, ensure_ne_overflow, and_false, exists_false, or_false]
    constructor
    · rintro (⟨k, last, hk, hlinks, hover⟩ | ⟨last, hlinks, hhead, hover⟩)
      · exact ⟨first, rest, k, last, rfl, Nat.le_of_lt hk, hlinks, hover,
          fun hall => absurd hall (Nat.ne_of_lt hk)⟩
      · refine ⟨first, rest, (first :: rest).length, last, rfl, Nat.le_refl _, ?_, hover,
          fun _ => hhead⟩
        rw [List.take_length]
        exact hlinks
    · rintro ⟨first, rest, k, last, ⟨⟩, hk, hlinks, hover, hhead⟩
      -- the counter is added up within the links or once more after the last one
      by_cases hall : k = (first :: rest).length
      · have hsame := hhead hall
        rw [hall, List.take_length] at hlinks
        rw [hall] at hover
        exact .inr ⟨last, hlinks, hsame, hover⟩
      · exact .inl ⟨k, last, Nat.lt_of_le_of_ne hk hall, hlinks, hover⟩

/-- A log that starts at step zero has a number for each of its steps. -/
theorem verifyFromGenesis_ne_overflow (c : MachineConfig) :
    m.verifyFromGenesis c ≠ .error .overflow := by
  intro h
  obtain ⟨hstart, hlog⟩ := ensure_bind_eq_overflow_iff.1 h
  obtain ⟨first, rest, k, last, hcommits, -, -, hover, -⟩ := verifyLog_eq_overflow_iff.1 hlog
  rw [Bool.and_eq_true] at hstart
  have hzero := hstart.2
  unfold startsAtZero at hzero
  rw [hcommits, decide_eq_true_eq] at hzero
  rw [hzero, UInt64.toNat_zero, Nat.zero_add] at hover
  exact absurd (UInt64.ofNat k).toNat_lt_size (Nat.not_lt.2 hover)

end Machine

namespace Contract

variable {c : Contract} {m : Machine} {p : Proposal} {deposits : List Deposit}
  {authority : PublicKey}

/-! ## The stages -/

/-- The activation of the record fits the machine, and the end of the machine's span does not fit
into a number. -/
@[mk_iff]
structure ExpiryRunsOut (c : Contract) (m : Machine) : Prop where
  canceled : c.canceled = false
  activated : c.activated = true
  activeAt : c.activeAt = some m.activeAt
  engineVmid : c.engineVmid = some m.vmid
  derived : m.vmid = c.machineId m.activeAt
  overflow : UInt64.size ≤ m.activeAt.toNat + c.terms.duration.toNat

theorem verifyActivation_eq_overflow_iff :
    c.verifyActivation m = .error .overflow ↔ c.ExpiryRunsOut m := by
  rw [expiryRunsOut_iff]
  unfold verifyActivation
  rw [check_bind_eq_overflow_iff, check_bind_eq_overflow_iff, audit_eq_ok_iff, audit_eq_ok_iff,
    Bool.not_eq_true']
  cases c.activeAt with
  | none => simp
  | some activeAt =>
    cases c.engineVmid with
    | none => simp
    | some vmid =>
      simp only [check_bind_eq_overflow_iff, bind_eq_error_iff (α := UInt64), audit_eq_ok_iff,
        decide_eq_true_eq, addOrHalt_eq_overflow_iff, Option.some.injEq, cause_ne_overflow,
        and_false, exists_false, or_false]
      constructor
      · rintro ⟨hcanceled, hactivated, rfl, rfl, hderived, hover⟩
        exact ⟨hcanceled, hactivated, rfl, rfl, hderived, hover⟩
      · rintro ⟨hcanceled, hactivated, rfl, rfl, hderived, hover⟩
        exact ⟨hcanceled, hactivated, rfl, rfl, hderived, hover⟩

theorem verifyClose_ne_overflow : c.verifyClose m ≠ .error .overflow := by
  intro h
  unfold verifyClose at h
  simp only [check_bind_eq_overflow_iff] at h
  obtain ⟨-, -, -, -, -, h⟩ := h
  obtain ⟨config, -, h⟩ := cause_bind_eq_overflow_iff.1 h
  cases hlog : m.verifyFromGenesis config with
  | ok => simp [hlog, Except.mapError] at h
  | error halt =>
    cases halt with
    | overflow => exact Machine.verifyFromGenesis_ne_overflow config hlog
    | cause e => simp [hlog, Except.mapError, haltOfLog] at h

/-- The whole audit halts at the activation or nowhere. -/
theorem verifySettlement_eq_overflow_iff :
    c.verifySettlement deposits p m authority = .error .overflow ↔
      c.verifyData = .ok () ∧ c.verifyPublishing p = .ok () ∧ c.verifyFunding deposits = .ok () ∧
        c.ExpiryRunsOut m := by
  unfold verifySettlement
  simp only [check_bind_eq_overflow_iff, bind_eq_error_iff (x := c.verifyActivation m),
    bind_eq_error_iff (x := c.verifyClose m), verifyActivation_eq_overflow_iff,
    verifyClose_ne_overflow, cause_ne_overflow, and_false, exists_false, or_false]

/-- For records of any origin the audit halts in these cases only, and in all others it passes or
refuses the record. The stages that are not named here have no sum that could halt. -/
theorem audit_halts_iff (c : Contract) (deposits : List Deposit) (p : Proposal) (m : Machine)
    (config : MachineConfig) (authority : PublicKey) :
    (m.verifyLog = .error .overflow ↔ m.StepsRunOut) ∧
      m.verifyFromGenesis config ≠ .error .overflow ∧
        (c.verifyActivation m = .error .overflow ↔ c.ExpiryRunsOut m) ∧
          c.verifyClose m ≠ .error .overflow ∧
            (c.verifySettlement deposits p m authority = .error .overflow ↔
              c.verifyData = .ok () ∧ c.verifyPublishing p = .ok () ∧
                c.verifyFunding deposits = .ok () ∧ c.ExpiryRunsOut m) :=
  ⟨Machine.verifyLog_eq_overflow_iff, Machine.verifyFromGenesis_ne_overflow config,
    verifyActivation_eq_overflow_iff, verifyClose_ne_overflow, verifySettlement_eq_overflow_iff⟩

end Contract

/-! ### Records that halt the audit -/

/-- A machine whose only link has the last step that there is. -/
def lastStep : Machine :=
  { giftMachine with
    commits := [⟨maxAmount, 10, .zero, .zero⟩]
    head := .chain .zero .zero
    step := 0 }

/-- The gift as though it had been activated at the last time that there is. -/
def lateGift : Contract :=
  { spentGift with
    activeAt := some maxAmount
    engineVmid := some (spentGift.machineId maxAmount) }

/-- The machine that goes with it. -/
def lateMachine : Machine :=
  { giftMachine with
    activeAt := maxAmount
    vmid := spentGift.machineId maxAmount }

namespace Contract

theorem expiryRunsOut_lateGift : lateGift.ExpiryRunsOut lateMachine :=
  ⟨rfl, rfl, rfl, rfl, rfl, by decide⟩

/-- Neither the machine nor the gift is refused: the audit halts on both. -/
theorem lateGift_halts :
    lastStep.verifyLog = .error .overflow ∧
      lateGift.verifyActivation lateMachine = .error .overflow ∧
        lateGift.verifySettlement [giftDeposit] delayedGift lateMachine giftServer =
          .error .overflow := by
  have hderived : lateGift.Derived := derived_spentGift.of_core rfl
  have hfunding : lateGift.verifyFunding [giftDeposit] = .ok () :=
    toOption_eq_some_iff.1 (by decide +kernel)
  refine ⟨?_, verifyActivation_eq_overflow_iff.2 expiryRunsOut_lateGift,
    verifySettlement_eq_overflow_iff.2 ⟨hderived.verifyData, hderived.verifyPublishing, hfunding,
      expiryRunsOut_lateGift⟩⟩
  have hlinks : Machine.followLinks maxAmount 0 .zero lastStep.commits = .ok lastStep.head :=
    Machine.followLinks_cons_eq_ok_iff.2 ⟨by decide, rfl, rfl⟩
  exact Machine.verifyLog_eq_overflow_iff.2
    ⟨_, [], 1, _, rfl, Nat.le_refl _, hlinks, by decide, fun _ => rfl⟩

end Contract

end JointEscrow
