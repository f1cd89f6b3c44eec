import JointEscrow.Proofs.Contract.Session

/-!
# The record follows its status

Each status of a contract comes with a flag, with fields of its own and with a proof. In every
record that the operations lead to from a published one, these are there exactly for the statuses on
the way to the present one, and the terms of the publication are as they were (`Regular`). Neither
the keys nor the machines that the operations are given matter. So a record shows its own history:
the log names the statuses that it went through, in their order (`regular_of_reaches`).
-/

namespace JointEscrow.Contract

variable {c c₀ n next : Contract} {key : KeyPair} {s : Status}

/-- Whether each field that is written with a status is there. -/
def fields (c : Contract) : Status → List Bool
  | .published => []
  | .canceled => [c.canceledAt.isSome]
  | .active => [c.activeAt.isSome, c.expiresAt.isSome, c.engineVmid.isSome]
  | .closed => [c.closedAt.isSome, c.engineHead.isSome]
  | .spent => [c.spentAt.isSome, c.spentTxid.isSome]
  | .settled => [c.settledAt.isSome]

/-- An activation was within the funding window, and the contract expires its whole duration after
that. -/
def Dated (c : Contract) : Prop :=
  ∀ time, c.activeAt = some time → (c.createdAt ≤ time ∧ time ≤ c.deadline) ∧
    ∃ expiresAt, c.expiresAt = some expiresAt ∧
      time.toNat + c.terms.duration.toNat = expiresAt.toNat

/-- The record of the contract that was published as `c₀`: flags, fields and proofs are those of the
statuses on the way to the present one. -/
structure Regular (c₀ c : Contract) : Prop where
  core : c.core = c₀.core
  flags : ∀ s, c.flag s = decide (s ∈ c.status.trail)
  fields : ∀ s, ∀ present ∈ c.fields s, present = c.flag s
  statuses : c.sigs.map (·.status) = c.status.trail
  dated : c.Dated

/-- Any number of operations, under any keys. -/
abbrev Reaches : Contract → Contract → Prop :=
  Relation.ReflTransGen fun c n => ∃ key, Step key c n

/-! ## Single operations -/

/-- A move writes all the fields of its status, and none of the others. -/
theorem Advance.fields (h : Advance c n) (s : Status) :
    if s = n.status then (n.fields s).all id = true else n.fields s = c.fields s := by
  cases h <;> cases s <;> rfl

theorem Advance.dated (h : Advance c n) (hdated : c.Dated) : n.Dated := by
  cases h with
  | withdrawn => exact hdated
  | started hstatus hwindow hfunded hspan =>
    intro time htime
    cases htime
    exact ⟨hwindow, _, rfl, hspan⟩
  | ended => exact hdated
  | paid => exact hdated
  | finished => exact hdated

theorem fields_signed (c : Contract) (sigs : ProofLog Status) (s : Status) :
    (c.signed sigs).fields s = c.fields s := by
  cases s <;> rfl

theorem Regular.advance (h : Regular c₀ c) (hadvance : Advance c n)
    (hrecord : n.recordStatus key = .ok next) : Regular c₀ next := by
  obtain ⟨-, note, hnote, rfl⟩ := (hadvance.recordStatus_eq_ok_iff h.statuses).1 hrecord
  constructor
  case core => exact hadvance.core.trans h.core
  case flags =>
    intro s
    rw [flag_signed]
    exact hadvance.flags h.flags s
  case fields =>
    intro s present hmem
    rw [fields_signed] at hmem
    rw [flag_signed, hadvance.flag]
    have hfields := hadvance.fields s
    by_cases hs : s = n.status
    · rw [if_pos hs] at hfields
      simpa [hs] using List.all_eq_true.1 hfields present hmem
    · rw [if_neg hs] at hfields
      simpa [hs] using h.fields s present (hfields ▸ hmem)
  case statuses => exact hadvance.statuses h.statuses note
  case dated => exact hadvance.dated h.dated

theorem Regular.withTotals (h : Regular c₀ c) (t : FundTotals) : Regular c₀ (c.withTotals t) := by
  constructor
  case core => exact h.core
  case flags =>
    intro s
    exact (by cases s <;> rfl : (c.withTotals t).flag s = c.flag s).trans (h.flags s)
  case fields =>
    intro s
    have hfields := h.fields s
    cases s <;> exact hfields
  case statuses => exact h.statuses
  case dated => exact h.dated

theorem Regular.step (h : Regular c₀ c) (hstep : Step key c n) : Regular c₀ n := by
  rcases step_cases hstep with ⟨deposits, rfl⟩ | ⟨next, hadvance, hrecord⟩
  · exact h.withTotals _
  · exact h.advance hadvance hrecord

theorem regular_of_create {options : PublishOptions} {policy : ServerPolicy} {r : PublishRequest}
    {now : UInt64} {ch : Change} (h : create options policy r key now = .ok ch) :
    Regular ch.contract ch.contract ∧ ch.contract.status = .published := by
  have hstanding := standing_of_create h
  obtain ⟨outputs, cid, fees, subtotal, sigs, -, -, -, -, rfl⟩ := fresh_of_create h
  refine ⟨⟨rfl, hstanding.flags, ?_, hstanding.statuses, nofun⟩, rfl⟩
  intro s present hmem
  cases s <;> simp [Contract.fields, signed, fresh, draft, Contract.withTotals] at hmem <;>
    exact hmem

/-! ## Whole lives -/

theorem Regular.of_reaches (h : Regular c₀ c) (hreaches : Reaches c n) : Regular c₀ n := by
  induction hreaches with
  | refl => exact h
  | tail _ hstep ih =>
    obtain ⟨key, hstep⟩ := hstep
    exact ih.step hstep

theorem trail_of_reaches (hreaches : Reaches c n) : c.status.trail <+: n.status.trail := by
  induction hreaches with
  | refl => exact List.prefix_rfl
  | tail _ hstep ih =>
    obtain ⟨key, hstep⟩ := hstep
    refine ih.trans ?_
    rcases step_cases hstep with ⟨deposits, rfl⟩ | ⟨next, hadvance, hrecord⟩
    · exact List.prefix_rfl
    · obtain ⟨-, note, sigs, -, -, rfl⟩ := recordStatus_eq_ok_iff.1 hrecord
      exact ⟨[next.status], hadvance.trail.symm⟩

/-- The trail of a status names only statuses that the contract has had since its publication. -/
theorem exists_of_mem_trail (hfirst : c₀.status = .published) (hreaches : Reaches c₀ c)
    (hs : s ∈ c.status.trail) : ∃ b, Reaches c₀ b ∧ Reaches b c ∧ b.status = s := by
  induction hreaches with
  | refl =>
    rw [hfirst] at hs
    exact ⟨c₀, .refl, .refl, hfirst.trans (List.mem_singleton.1 hs).symm⟩
  | @tail b n hbefore hstep ih =>
    have hearlier : s ∈ b.status.trail → ∃ a, Reaches c₀ a ∧ Reaches a n ∧ a.status = s := by
      intro hb
      obtain ⟨a, hfrom, hto, ha⟩ := ih hb
      exact ⟨a, hfrom, hto.tail hstep, ha⟩
    obtain ⟨key, hone⟩ := hstep
    rcases step_cases hone with ⟨deposits, rfl⟩ | ⟨next, hadvance, hrecord⟩
    · exact hearlier hs
    · obtain ⟨-, note, sigs, -, -, rfl⟩ := recordStatus_eq_ok_iff.1 hrecord
      change s ∈ next.status.trail at hs
      rw [hadvance.trail, List.mem_append, List.mem_singleton] at hs
      rcases hs with hold | rfl
      · exact hearlier hold
      · exact ⟨_, hbefore.tail ⟨key, hone⟩, .refl, rfl⟩

/-- Whatever succeeds after a publication, the record stays regular. So a canceled contract was
never active, a later flag comes with the earlier ones, and the log names each status that the
contract has had once, the present one last. -/
theorem regular_of_reaches {options : PublishOptions} {policy : ServerPolicy} {r : PublishRequest}
    {now : UInt64} {ch : Change} (hcreate : create options policy r key now = .ok ch)
    (hreaches : Reaches ch.contract c) :
    Regular ch.contract c ∧ (c.canceled = true ↔ c.status = .canceled) ∧
      (c.settled = true → c.spent = true) ∧ (c.spent = true → c.closed = true) ∧
        (c.closed = true → c.activated = true) ∧ (c.activated = true → c.canceled = false) ∧
          (c.sigs.map (·.status)).Nodup ∧ c.sigs.latest?.map (·.status) = some c.status ∧
            ∀ s, s ∈ c.sigs.map (·.status) ↔
              ∃ b, Reaches ch.contract b ∧ Reaches b c ∧ b.status = s := by
  obtain ⟨hfresh, hfirst⟩ := regular_of_create hcreate
  have h := hfresh.of_reaches hreaches
  have hcanceled : c.canceled = decide (Status.canceled ∈ c.status.trail) := h.flags .canceled
  have hactivated : c.activated = decide (Status.active ∈ c.status.trail) := h.flags .active
  have hclosed : c.closed = decide (Status.closed ∈ c.status.trail) := h.flags .closed
  have hspent : c.spent = decide (Status.spent ∈ c.status.trail) := h.flags .spent
  have hsettled : c.settled = decide (Status.settled ∈ c.status.trail) := h.flags .settled
  refine ⟨h, ?_, ?_, ?_, ?_, ?_, ?_, ?_, ?_⟩
  · rw [hcanceled]
    cases c.status <;> decide
  · rw [hsettled, hspent]
    cases c.status <;> decide
  · rw [hspent, hclosed]
    cases c.status <;> decide
  · rw [hclosed, hactivated]
    cases c.status <;> decide
  · rw [hactivated, hcanceled]
    cases c.status <;> decide
  · rw [h.statuses]
    exact c.status.nodup_trail
  · rw [ProofLog.latest?, ← List.getLast?_map, h.statuses]
    cases c.status <;> rfl
  · intro s
    rw [h.statuses]
    constructor
    · exact exists_of_mem_trail hfirst hreaches
    · rintro ⟨b, -, hto, rfl⟩
      have hlast : b.status ∈ b.status.trail := by cases b.status <;> decide
      exact (trail_of_reaches hto).subset hlast

/-- The gift from its publication until it is spent. -/
theorem delayedGift_regular : ∃ published c,
    create {} {} ⟨delayedGift, []⟩ escrowKey 0 = .ok published ∧
      Reaches published.contract c ∧ c.status = .spent ∧ Regular published.contract c := by
  obtain ⟨run⟩ := nonempty_giftRun
  have hfunded : Reaches run.published.contract run.funded.contract :=
    .single ⟨escrowKey, .fund run.funds⟩
  have hactive := hfunded.tail ⟨escrowKey, .activate run.activates⟩
  have hclosed := hactive.tail ⟨escrowKey, .close run.closes⟩
  have hspent := hclosed.tail ⟨escrowKey, .spend run.spends⟩
  refine ⟨_, _, run.creates, hspent, ?_, (regular_of_reaches run.creates hspent).1⟩
  obtain ⟨-, -, -, _, txid, next, -, -, hrecord, hchange⟩ := spend_eq_ok_iff.1 run.spends
  obtain ⟨-, note, sigs, -, -, rfl⟩ := recordStatus_eq_ok_iff.1 hrecord
  rw [hchange]
  rfl

end JointEscrow.Contract
