import JointEscrow.Proofs.Contract.Operations

/-!
# From one status to the next

Every operation but a report of deposits moves a contract to a status that follows its present one.
`Advance` lists these moves with what each writes, and its lemmas say once what all of them do: the
trail of statuses grows by one, only the flag and the note of the new status change, and the log
gets one proof more. The operations are such moves with their proofs (`step_cases`).
-/

namespace JointEscrow

/-- The statuses on the way to a status, itself included. -/
def Status.trail : Status → List Status
  | published => [published]
  | canceled => [published, canceled]
  | active => [published, active]
  | closed => [published, active, closed]
  | spent => [published, active, closed, spent]
  | settled => [published, active, closed, spent, settled]

theorem Status.nodup_trail (s : Status) : s.trail.Nodup := by
  cases s <;> decide

namespace Contract

variable {c n next : Contract} {key : KeyPair} {s : Status}

/-- Whether the record says that a status has been reached. -/
def flag (c : Contract) : Status → Bool
  | .published => true
  | .canceled => c.canceled
  | .active => c.activated
  | .closed => c.closed
  | .spent => c.spent
  | .settled => c.settled

theorem flag_signed (c : Contract) (sigs : ProofLog Status) (s : Status) :
    (c.signed sigs).flag s = c.flag s := by
  cases s <;> rfl

theorem statusNote_signed (c : Contract) (sigs : ProofLog Status) (s : Status) :
    (c.signed sigs).statusNote s = c.statusNote s := by
  cases s <;> rfl

/-! ## Moves -/

/-- A record takes on a status that follows its own; the proof of it comes after. -/
inductive Advance (c : Contract) : Contract → Prop where
  | withdrawn {time : UInt64} (hstatus : c.status = .published)
      (hwindow : c.createdAt ≤ time ∧ time ≤ c.deadline) : Advance c (c.withdrawn time)
  | started {time expiresAt : UInt64} (hstatus : c.status = .published)
      (hwindow : c.createdAt ≤ time ∧ time ≤ c.deadline) (hfunded : c.txTotal ≤ c.fundValue)
      (hspan : time.toNat + c.terms.duration.toNat = expiresAt.toNat) :
      Advance c (c.started time (c.machineId time) expiresAt)
  | ended {m : Machine} {time : UInt64} (hstatus : c.status = .active)
      (hvmid : c.engineVmid = some m.vmid) (hclosed : m.closed = true)
      (htime : m.closedAt = some time) : Advance c (c.ended m time)
  | paid {txid : Digest} {time : UInt64} (hstatus : c.status = .closed)
      (houtput : c.engineVout.isSome = true) : Advance c (c.paid txid time)
  | finished {time : UInt64} (hstatus : c.status = .spent) : Advance c (c.finished time)

theorem Advance.core (h : Advance c n) : n.core = c.core := by
  cases h <;> rfl

theorem Advance.sigs (h : Advance c n) : n.sigs = c.sigs := by
  cases h <;> rfl

theorem Advance.trail (h : Advance c n) : n.status.trail = c.status.trail ++ [n.status] := by
  cases h with
  | withdrawn hstatus => rw [hstatus]; rfl
  | started hstatus => rw [hstatus]; rfl
  | ended hstatus => rw [hstatus]; rfl
  | paid hstatus => rw [hstatus]; rfl
  | finished hstatus => rw [hstatus]; rfl

theorem Advance.fresh (h : Advance c n) : n.status ∉ c.status.trail := by
  have hnodup := n.status.nodup_trail
  rw [h.trail] at hnodup
  intro hmem
  exact (List.nodup_append.1 hnodup).2.2 _ hmem _ List.mem_cons_self rfl

theorem Advance.flag (h : Advance c n) (s : Status) :
    n.flag s = (decide (s = n.status) || c.flag s) := by
  cases h <;> cases s <;> rfl

theorem Advance.flags (h : Advance c n) (hflags : ∀ s, c.flag s = decide (s ∈ c.status.trail))
    (s : Status) : n.flag s = decide (s ∈ n.status.trail) := by
  rw [h.flag, hflags, h.trail, Bool.eq_iff_iff]
  simp [or_comm]

/-- The notes of the other statuses read no field that a move writes. -/
theorem Advance.statusNote (h : Advance c n) (hs : s ≠ n.status) :
    n.statusNote s = c.statusNote s := by
  cases h <;> cases s <;> first | rfl | exact absurd rfl hs

theorem Advance.exists_note (h : Advance c n) : ∃ note, n.statusNote n.status = .ok note := by
  cases h <;> exact ⟨_, rfl⟩

theorem Advance.statuses (h : Advance c n) (hstatuses : c.sigs.map (·.status) = c.status.trail)
    (note : Note) :
    (c.sigs ++ [notarize n.status note key]).map (·.status) = n.status.trail := by
  rw [List.map_append, hstatuses, h.trail]
  rfl

/-- After a move the log takes the proof of the new status at its end, from the authority only. -/
theorem Advance.recordStatus_eq_ok_iff (h : Advance c n)
    (hstatuses : c.sigs.map (·.status) = c.status.trail) :
    n.recordStatus key = .ok next ↔
      key.publicKey = c.serverPk ∧ ∃ note, n.statusNote n.status = .ok note ∧
        next = n.signed (c.sigs ++ [notarize n.status note key]) := by
  have happend : ∀ note, n.sigs.update? (notarize n.status note key) =
      some (c.sigs ++ [notarize n.status note key]) := by
    intro note
    rw [h.sigs]
    refine ProofLog.update?_of_fresh fun e he heq => h.fresh ?_
    have heq : e.status = n.status := heq
    rw [← hstatuses, ← heq]
    exact List.mem_map_of_mem he
  have hserver : n.core.serverPk = c.core.serverPk := by rw [h.core]
  rw [Contract.recordStatus_eq_ok_iff, show n.serverPk = c.serverPk from hserver]
  constructor
  · rintro ⟨hkey, note, sigs, hnote, hsigs, rfl⟩
    rw [happend] at hsigs
    cases hsigs
    exact ⟨hkey, note, hnote, rfl⟩
  · rintro ⟨hkey, note, hnote, rfl⟩
    exact ⟨hkey, note, _, hnote, happend note, rfl⟩

/-- The authority can always prove the new status. -/
theorem Advance.exists_record (h : Advance c n)
    (hstatuses : c.sigs.map (·.status) = c.status.trail) (hkey : key.publicKey = c.serverPk) :
    ∃ next, n.recordStatus key = .ok next := by
  obtain ⟨note, hnote⟩ := h.exists_note
  exact ⟨_, (h.recordStatus_eq_ok_iff hstatuses).2 ⟨hkey, note, hnote, rfl⟩⟩

/-! ## Operations -/

/-- One operation that succeeds, with whatever arguments. -/
inductive Step (key : KeyPair) (c : Contract) : Contract → Prop where
  | fund {deposits : List Deposit} {ch : Change} (h : c.fund deposits = .ok ch) :
      Step key c ch.contract
  | cancel {time : UInt64} {ch : Change} (h : c.cancel key time = .ok ch) : Step key c ch.contract
  | activate {time : UInt64} {ch : Change} {m : Machine} (h : c.activate key time = .ok (ch, m)) :
      Step key c ch.contract
  | close {m : Machine} {ch : Change} (h : c.close m key = .ok ch) : Step key c ch.contract
  | spend {m : Machine} {deposits : List Deposit} {time : UInt64} {ch : Change}
      (h : c.spend m deposits key time = .ok ch) : Step key c ch.contract
  | settle {time : UInt64} {ch : Change} (h : c.settle key time = .ok ch) : Step key c ch.contract

/-- An operation writes new figures, or it moves the contract on and adds the proof of that. -/
theorem step_cases (h : Step key c n) :
    (∃ deposits, n = c.withTotals (c.tabulate deposits)) ∨
      ∃ next, Advance c next ∧ next.recordStatus key = .ok n := by
  cases h with
  | fund h =>
    obtain ⟨-, -, rfl⟩ := fund_eq_ok_iff.1 h
    exact .inl ⟨_, rfl⟩
  | cancel h =>
    obtain ⟨hstatus, -, hwindow, next, hrecord, rfl⟩ := cancel_eq_ok_iff.1 h
    exact .inr ⟨_, .withdrawn hstatus hwindow, hrecord⟩
  | activate h =>
    obtain ⟨hcheck, expiresAt, config, next, hspan, -, -, hrecord, rfl⟩ := activate_eq_ok_iff.1 h
    obtain ⟨hstatus, -, -, hwindow, hfunded⟩ := checkActivation_eq_ok_iff.1 hcheck
    exact .inr ⟨_, .started hstatus hwindow hfunded hspan, hrecord⟩
  | close h =>
    obtain ⟨hstatus, hvmid, hclosed, time, next, htime, hrecord, rfl⟩ := close_eq_ok_iff.1 h
    exact .inr ⟨_, .ended hstatus hvmid hclosed htime, hrecord⟩
  | spend h =>
    obtain ⟨hstatus, hsome, houtput, s, txid, next, -, -, hrecord, rfl⟩ := spend_eq_ok_iff.1 h
    exact .inr ⟨_, .paid hstatus (houtput ▸ hsome), hrecord⟩
  | settle h =>
    obtain ⟨hstatus, next, hrecord, rfl⟩ := settle_eq_ok_iff.1 h
    exact .inr ⟨_, .finished hstatus, hrecord⟩

end Contract

end JointEscrow
