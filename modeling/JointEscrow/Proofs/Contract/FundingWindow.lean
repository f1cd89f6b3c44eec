import JointEscrow.Proofs.Contract.Publication
import JointEscrow.Proofs.Contract.Regularity

/-!
# Funding windows and the policy

A deadline is the proposal's own time, or a window after publication that the proposal or else the
server sets. The policy bounds the proposal's window only. So `windowed_of_create` has one case for
each source: a window that the proposal sets is always within the policy, a window of the server's
only if the server's own settings agree, and a time of the proposal's only by itself. A contract
whose deadline is before its publication stays published, whatever is tried
(`published_of_reaches`).
-/

namespace JointEscrow.Contract

variable {c c₀ n : Contract} {key : KeyPair} {policy : ServerPolicy} {time : UInt64}

/-- The funding window opens with the publication and is no longer than the policy allows. -/
structure Windowed (policy : ServerPolicy) (c : Contract) : Prop where
  opens : c.createdAt ≤ c.deadline
  ends : c.deadline ≤ addClamped c.createdAt policy.proposal.maxDeadline

/-! ## Clamped windows -/

theorem le_addClamped (start window : UInt64) : start ≤ addClamped start window := by
  rw [UInt64.le_iff_toNat_le, toNat_addClamped]
  have hsize := start.toNat_lt_size
  omega

/-- Of two windows the longer ends later, unless both are cut off at the largest time. -/
theorem addClamped_le_iff {start a b : UInt64} :
    addClamped start a ≤ addClamped start b ↔
      a ≤ b ∨ UInt64.size - 1 ≤ start.toNat + b.toNat := by
  rw [UInt64.le_iff_toNat_le, UInt64.le_iff_toNat_le, toNat_addClamped, toNat_addClamped]
  omega

/-! ## What can be done within the window -/

/-- The authority can take a contract back while it is published and its window open. -/
theorem Regular.exists_cancel_iff (h : Regular c₀ c) (hkey : key.publicKey = c.serverPk) :
    (∃ ch, c.cancel key time = .ok ch) ↔
      c.status = .published ∧ c.createdAt ≤ time ∧ time ≤ c.deadline := by
  constructor
  · rintro ⟨ch, hcancel⟩
    obtain ⟨hstatus, -, hwindow, -⟩ := cancel_eq_ok_iff.1 hcancel
    exact ⟨hstatus, hwindow⟩
  · rintro ⟨hstatus, hwindow⟩
    have hactivated := h.flags .active
    have hcanceled := h.flags .canceled
    rw [hstatus] at hactivated hcanceled
    obtain ⟨next, hrecord⟩ := (Advance.withdrawn hstatus hwindow).exists_record h.statuses hkey
    exact ⟨_, cancel_eq_ok_iff.2 ⟨hstatus, ⟨hactivated, hcanceled⟩, hwindow, next, hrecord, rfl⟩⟩

/-- Both ways out of publication lead through the window. -/
theorem published_of_reaches (hstatus : c.status = .published) (hempty : c.deadline < c.createdAt)
    (hreaches : Reaches c n) : n.status = .published := by
  suffices h : n.status = .published ∧ n.deadline < n.createdAt from h.1
  induction hreaches with
  | refl => exact ⟨hstatus, hempty⟩
  | @tail b n _ hstep ih =>
    obtain ⟨hpublished, hbefore⟩ := ih
    obtain ⟨key, hstep⟩ := hstep
    have hnever : ∀ time, ¬ (b.createdAt ≤ time ∧ time ≤ b.deadline) := by
      rintro time ⟨hfrom, hto⟩
      exact UInt64.not_lt.2 (UInt64.le_trans hfrom hto) hbefore
    rcases step_cases hstep with ⟨deposits, rfl⟩ | ⟨next, hadvance, -⟩
    · exact ⟨hpublished, hbefore⟩
    · cases hadvance with
      | withdrawn _ hwindow => exact absurd hwindow (hnever _)
      | started _ hwindow => exact absurd hwindow (hnever _)
      | ended hother => cases hpublished.symm.trans hother
      | paid hother => cases hpublished.symm.trans hother
      | finished hother => cases hpublished.symm.trans hother

/-! ## Publication -/

/-- The times of a fresh record. -/
theorem times_of_create {options : PublishOptions} {r : PublishRequest} {now : UInt64} {ch : Change}
    (hcreate : create options policy r key now = .ok ch) :
    ch.contract.createdAt = now ∧
      ch.contract.deadline = r.proposal.fundingDeadline now policy.contract.defaultDeadline ∧
        ch.contract.serverPk = key.publicKey := by
  obtain ⟨outputs, cid, fees, subtotal, sigs, -, -, -, -, rfl⟩ := fresh_of_create hcreate
  exact ⟨rfl, rfl, rfl⟩

/-- When the window of a published contract is within the policy, by the source of its deadline, and
when the authority can take the contract back. -/
theorem windowed_of_create {options : PublishOptions} {r : PublishRequest} {now : UInt64}
    {ch : Change} (hcreate : create options policy r key now = .ok ch) :
    (∀ limit, r.proposal.effective = some limit →
      (Windowed policy ch.contract ↔
        now ≤ limit ∧ limit ≤ addClamped now policy.proposal.maxDeadline)) ∧
    (r.proposal.effective = none → r.proposal.deadline ≠ none → Windowed policy ch.contract) ∧
    (r.proposal.effective = none → r.proposal.deadline = none →
      now ≤ ch.contract.deadline ∧
        (Windowed policy ch.contract ↔
          policy.contract.defaultDeadline ≤ policy.proposal.maxDeadline ∨
            UInt64.size - 1 ≤ now.toNat + policy.proposal.maxDeadline.toNat)) ∧
    ∀ time, (∃ next, ch.contract.cancel key time = .ok next) ↔
      now ≤ time ∧ time ≤ ch.contract.deadline := by
  obtain ⟨hcreated, hdeadline, hkey⟩ := times_of_create hcreate
  obtain ⟨hregular, hstatus⟩ := regular_of_create hcreate
  have hwindowed : Windowed policy ch.contract ↔ now ≤ ch.contract.deadline ∧
      ch.contract.deadline ≤ addClamped now policy.proposal.maxDeadline := by
    rw [← hcreated]
    exact ⟨fun h => ⟨h.opens, h.ends⟩, fun h => ⟨h.1, h.2⟩⟩
  unfold Proposal.fundingDeadline at hdeadline
  refine ⟨?_, ?_, ?_, ?_⟩
  · intro limit hlimit
    rw [hlimit] at hdeadline
    rw [hwindowed, hdeadline]
  · intro hnone hsome
    obtain ⟨window, hwindow⟩ := Option.ne_none_iff_exists'.1 hsome
    rw [hnone, hwindow] at hdeadline
    rw [hwindowed, hdeadline]
    have hallowed := (PublishRequest.verify_eq_ok_iff.1 (create_eq_ok_iff.1 hcreate).1).2.1
    obtain ⟨-, hshort⟩ := hallowed.deadline window hwindow
    exact ⟨le_addClamped _ _, addClamped_le_iff.2 (.inl hshort)⟩
  · intro hnone hnone'
    rw [hnone, hnone'] at hdeadline
    rw [hwindowed, hdeadline]
    have hopens := le_addClamped now policy.contract.defaultDeadline
    refine ⟨hopens, ?_⟩
    rw [← addClamped_le_iff]
    exact ⟨fun h => h.2, fun h => ⟨hopens, h⟩⟩
  · intro time
    rw [hregular.exists_cancel_iff hkey.symm, hcreated]
    exact ⟨fun h => h.2, fun h => ⟨hstatus, h⟩⟩

/-- The gift, with the server's window. -/
theorem delayedGift_windowed : ∃ ch, create {} {} ⟨delayedGift, []⟩ escrowKey 0 = .ok ch ∧
    Windowed {} ch.contract ∧ ∃ next, ch.contract.cancel escrowKey 0 = .ok next := by
  obtain ⟨run⟩ := nonempty_giftRun
  obtain ⟨-, -, hdefault, hcancel⟩ := windowed_of_create run.creates
  obtain ⟨hopens, hwindowed⟩ := hdefault rfl rfl
  exact ⟨_, run.creates, hwindowed.2 (.inl (by decide)), (hcancel 0).2 ⟨by decide, hopens⟩⟩

/-- The gift with a funding time of its own. -/
def giftUntil (limit : UInt64) : Proposal := { delayedGift with effective := some limit }

/-- A server whose own window is longer than the ones it allows. -/
def generousPolicy : ServerPolicy := { contract := { defaultDeadline := 604801 } }

/-- The gift is published ten seconds after the end of its window, and then its authority can never
take it back. It is published with a window that has no end in practice, and with the server's own
that is longer than the server allows. -/
theorem windows_exceed_policy : ∃ late endless long,
    create {} {} ⟨giftUntil 0, []⟩ escrowKey 10 = .ok late ∧
      late.contract.deadline < late.contract.createdAt ∧
      (∀ c, Reaches late.contract c → c.status = .published) ∧
      (∀ next, late.contract.cancel escrowKey late.contract.createdAt ≠ .ok next) ∧
    create {} {} ⟨giftUntil maxAmount, []⟩ escrowKey 0 = .ok endless ∧
      ¬ Windowed {} endless.contract ∧
    create {} generousPolicy ⟨delayedGift, []⟩ escrowKey 0 = .ok long ∧
      ¬ Windowed generousPolicy long.contract := by
  have hlate : (create {} {} ⟨giftUntil 0, []⟩ escrowKey 10).toOption.isSome = true := by
    decide +kernel
  have hendless : (create {} {} ⟨giftUntil maxAmount, []⟩ escrowKey 0).toOption.isSome = true := by
    decide +kernel
  have hlong : (create {} generousPolicy ⟨delayedGift, []⟩ escrowKey 0).toOption.isSome = true := by
    decide +kernel
  simp only [Option.isSome_iff_exists, toOption_eq_some_iff] at hlate hendless hlong
  obtain ⟨late, hlate⟩ := hlate
  obtain ⟨endless, hendless⟩ := hendless
  obtain ⟨long, hlong⟩ := hlong
  have hempty : late.contract.deadline < late.contract.createdAt := by
    obtain ⟨hcreated, hdeadline, -⟩ := times_of_create hlate
    rw [hcreated, hdeadline]
    decide
  refine ⟨late, endless, long, hlate, hempty, ?_, ?_, hendless, ?_, hlong, ?_⟩
  · intro c hreaches
    exact published_of_reaches (regular_of_create hlate).2 hempty hreaches
  · intro next hcancel
    obtain ⟨hfrom, hto⟩ := (cancel_eq_ok_iff.1 hcancel).2.2.1
    exact UInt64.not_lt.2 (UInt64.le_trans hfrom hto) hempty
  · obtain ⟨hcreated, hdeadline, -⟩ := times_of_create hendless
    intro h
    have hends := h.ends
    rw [hcreated, hdeadline] at hends
    exact absurd hends (by decide)
  · obtain ⟨hcreated, hdeadline, -⟩ := times_of_create hlong
    intro h
    have hends := h.ends
    rw [hcreated, hdeadline] at hends
    exact absurd hends (by decide)

end JointEscrow.Contract
