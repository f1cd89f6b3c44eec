import JointEscrow.Proofs.Machine.History
import JointEscrow.Proofs.Machine.Pending
import JointEscrow.Proofs.Machine.Satisfaction

/-!
# Which witnesses a machine accepts

An open machine accepts a witness exactly when it is `Acceptable`: asked of this machine at this
step, in time, on a declared path that the action can move, and signed by distinct keys that some
program permits and that have not endorsed the action yet. What becomes of the machine then is
`Accepted`: one link more in the log, and either the keys wait with the pending action or the path
moves and loses all that was pending on it. Nothing else changes (`accepts_exactly`).
-/

namespace JointEscrow

namespace Machine

variable {m n : Machine} {w : Witness} {current goal : PathState} {keys all : SortedSet PublicKey}

/-! ## The gates in plain words -/

theorem validate_eq_ok_iff :
    w.validate = .ok () ↔ w.path ≠ "" ∧ w.endorsements ≠ [] ∧ w.signers.Nodup := by
  unfold Witness.validate
  by_cases hpath : w.path = ""
  · simp [hpath]
  · by_cases hnone : w.endorsements = []
    · simp [hpath, hnone]
    · rw [← firstRepeat?_eq_none_iff]
      cases hrepeat : firstRepeat? w.signers with
      | none => simp [hpath, hnone]
      | some key => simp [hpath, hnone]

theorem addSigners_eq_ok_iff {l : List PublicKey} :
    addSigners keys l = .ok all ↔
      l.Nodup ∧ (∀ k ∈ l, k ∉ keys) ∧ all = l.foldl .insert keys := by
  induction l generalizing keys with
  | nil => simp [addSigners, eq_comm]
  | cons a r ih =>
    rw [addSigners, List.nodup_cons, List.forall_mem_cons, List.foldl_cons]
    by_cases ha : a ∈ keys
    · simp [ha]
    · rw [if_neg ha, ih]
      -- the first signer is one of the keys that the others must not be among
      simp only [SortedSet.mem_insert, not_or]
      constructor
      · rintro ⟨hnodup, hfresh, rfl⟩
        exact ⟨⟨fun har => (hfresh a har).1 rfl, hnodup⟩, ⟨ha, fun k hk => (hfresh k hk).2⟩, rfl⟩
      · rintro ⟨⟨har, hnodup⟩, ⟨-, hfresh⟩, rfl⟩
        exact ⟨hnodup, fun k hk => ⟨fun hka => har (hka ▸ hk), hfresh k hk⟩, rfl⟩

theorem contestedBy?_eq_none_iff {action : Action} {path : String} :
    m.contestedBy? action path = none ↔
      (action = .close ∨ action = .dispute →
        ∀ l, l ≠ path → m.pathState? l ≠ some .disputed) := by
  have hother : m.disputedOther? path = none ↔
      ∀ l, l ≠ path → m.pathState? l ≠ some .disputed := by
    rw [disputedOther?_eq_none_iff]
    exact forall_congr' fun l => not_imp_not.symm
  cases action with
  | close => simpa [contestedBy?] using hother
  | dispute => simpa [contestedBy?] using hother
  | resolve => simp [contestedBy?]
  | lock => simp [contestedBy?]
  | release => simp [contestedBy?]

/-! ## What is accepted -/

/-- What a witness has to be for an open machine to accept it. -/
structure Acceptable (m : Machine) (w : Witness) : Prop where
  vmid : w.vmid = m.vmid
  step : w.step = m.step
  path : w.path ≠ ""
  endorsed : w.endorsements ≠ []
  distinct : w.signers.Nodup
  notEarly : m.updatedAt ≤ w.stamp
  notLate : w.stamp < m.expiresAt
  beforeTasks : ∀ t ∈ m.tasks.head?, w.stamp < t.due
  admitted : ∃ current, m.pathState? w.path = some current ∧ (current.next? w.action).isSome = true
  signed : ∀ e ∈ w.endorsements, e.verifies w.id = true
  granted : ∃ p ∈ m.programs, p.grants w.method w.action w.path = true
  permitted : ∀ k ∈ w.signers,
    ∃ p ∈ m.programs, p.grants w.method w.action w.path = true ∧ p.permits k = true
  uncontested : w.action = .close ∨ w.action = .dispute →
    ∀ l, l ≠ w.path → m.pathState? l ≠ some .disputed
  fresh : ∀ old, m.endorsedBy? w.action w.path = some old → ∀ k ∈ w.signers, k ∉ old

/-- The keys that have endorsed the action of a witness once it is accepted: those that the store
holds for it, and its own. -/
def endorsing (m : Machine) (w : Witness) : SortedSet PublicKey :=
  w.signers.foldl .insert ((m.endorsedBy? w.action w.path).getD .empty)

theorem Admitted.keys_eq (h : m.Admitted w current goal keys) : keys = m.endorsing w :=
  (addSigners_eq_ok_iff.1 h.collected).2.2

theorem mem_granting {programs : List Program} {method : Method} {action : Action} {path : String}
    {p : Program} : p ∈ Program.granting programs method action path ↔
      p ∈ programs ∧ p.grants method action path = true := List.mem_filter

theorem acceptable_iff : m.Acceptable w ↔ ∃ current goal keys, m.Admitted w current goal keys := by
  have hfresh : (∀ old, m.endorsedBy? w.action w.path = some old → ∀ k ∈ w.signers, k ∉ old) ↔
      ∀ k ∈ w.signers, k ∉ (m.endorsedBy? w.action w.path).getD .empty := by
    have hnone : ∀ k, k ∉ (SortedSet.empty : SortedSet PublicKey) := fun _ => List.not_mem_nil
    cases m.endorsedBy? w.action w.path with
    | none => simp [hnone]
    | some old => simp
  constructor
  · intro h
    obtain ⟨current, hstate, hnext⟩ := h.admitted
    obtain ⟨goal, hgoal⟩ := Option.isSome_iff_exists.1 hnext
    refine ⟨current, goal, m.endorsing w, h.vmid, h.step,
      validate_eq_ok_iff.2 ⟨h.path, h.endorsed, h.distinct⟩, h.notEarly, h.notLate, h.beforeTasks,
      hstate, h.signed, ?_, ?_, hgoal, contestedBy?_eq_none_iff.2 h.uncontested,
      addSigners_eq_ok_iff.2 ⟨h.distinct, hfresh.1 h.fresh, rfl⟩⟩
    · obtain ⟨p, hp, hgrants⟩ := h.granted
      exact List.ne_nil_of_mem (mem_granting.2 ⟨hp, hgrants⟩)
    · intro k hk
      obtain ⟨p, hp, hgrants, hpermits⟩ := h.permitted k hk
      exact ⟨p, mem_granting.2 ⟨hp, hgrants⟩, hpermits⟩
  · rintro ⟨current, goal, keys, h⟩
    obtain ⟨hpath, hendorsed, hdistinct⟩ := validate_eq_ok_iff.1 h.valid
    refine ⟨h.vmid, h.step, hpath, hendorsed, hdistinct, h.notEarly, h.notLate, h.beforeTasks,
      ⟨current, h.state, ?_⟩, h.signed, ?_, ?_, contestedBy?_eq_none_iff.1 h.uncontested,
      hfresh.2 (addSigners_eq_ok_iff.1 h.collected).2.1⟩
    · rw [h.admits]
      rfl
    · obtain ⟨p, hp⟩ := List.exists_mem_of_ne_nil _ h.granted
      exact ⟨p, mem_granting.1 hp⟩
    · intro k hk
      obtain ⟨p, hp, hpermits⟩ := h.permitted k hk
      exact ⟨p, (mem_granting.1 hp).1, (mem_granting.1 hp).2, hpermits⟩

/-- The gates find one goal and one set of keys. -/
theorem Admitted.unique {current' goal' : PathState} {keys' : SortedSet PublicKey}
    (h : m.Admitted w current goal keys) (h' : m.Admitted w current' goal' keys') :
    goal' = goal ∧ keys' = keys := by
  have hcheck := check_eq_ok_iff.2 ⟨current, h⟩
  rw [check_eq_ok_iff.2 ⟨current', h'⟩] at hcheck
  cases hcheck
  exact ⟨rfl, rfl⟩

theorem apply_eq_ok_iff (hopen : m.closed = false) :
    m.apply w = .ok n ↔
      ∃ current goal keys, ∃ step : UInt64, m.Admitted w current goal keys ∧
        m.step.toNat + 1 = step.toNat ∧ n = m.committed w goal keys step := by
  have hcommits : ∀ {wid : Digest} {stamp : UInt64} {s : Machine},
      ({ m with error := none } : Machine).commit wid stamp = some s ↔ ∃ step : UInt64,
        m.step.toNat + 1 = step.toNat ∧
          s = ({ m with error := none } : Machine).linked wid stamp step := commit_eq_some_iff
  unfold apply
  rw [if_neg (by simp [hopen])]
  cases hcheck : m.check w with
  | error e =>
    simp only [reduceCtorEq, false_iff]
    rintro ⟨current, goal, keys, step, hadmitted, -⟩
    rw [check_eq_ok_iff.2 ⟨current, hadmitted⟩] at hcheck
    cases hcheck
  | ok r =>
    obtain ⟨goal, keys⟩ := r
    obtain ⟨current, hadmitted⟩ := check_eq_ok_iff.1 hcheck
    have hnext : ∀ step, (if (Program.firstSatisfied m.programs w.method w.action w.path
        keys).isSome = true then Except.ok ((m.accepting w keys step).settle w.path goal w.stamp)
          else .ok (m.accepting w keys step) : Except (Halt Refusal) Machine) =
            .ok (m.committed w goal keys step) := by
      intro step
      unfold committed
      split <;> rfl
    cases hcommit : ({ m with error := none } : Machine).commit w.id w.stamp with
    | none =>
      simp only [reduceCtorEq, false_iff]
      rintro ⟨current', goal', keys', step, hadmitted', hstep, -⟩
      rw [hcommits.2 ⟨step, hstep, rfl⟩] at hcommit
      cases hcommit
    | some s =>
      obtain ⟨step, hstep, rfl⟩ := hcommits.1 hcommit
      refine Iff.trans (Eq.congr_left (hnext step)) ?_
      rw [Except.ok.injEq]
      constructor
      · rintro rfl
        exact ⟨current, goal, keys, step, hadmitted, hstep, rfl⟩
      · rintro ⟨current', goal', keys', step', hadmitted', hstep', rfl⟩
        obtain ⟨rfl, rfl⟩ := hadmitted.unique hadmitted'
        rw [UInt64.toNat_inj.1 (hstep.symm.trans hstep')]

/-! ## What becomes of the machine -/

theorem closesAt_iff {label : String} : m.closesAt label goal = true ↔
    goal = .closed ∧ ∀ l, l ≠ label → m.pathState? l ≠ some .disputed := by
  unfold closesAt
  rw [Bool.and_eq_true, decide_eq_true_eq, Option.isNone_iff_eq_none, disputedOther?_eq_none_iff]
  refine and_congr_right fun _ => forall_congr' fun l => ?_
  have hstate : ({ m with paths := m.paths.insert label goal } : Machine).pathState? l =
      if l = label then some goal else m.pathState? l := SortedMap.find?_insert _ _ _ _
  rw [hstate]
  by_cases hl : l = label
  · simp [hl]
  · simp [hl]

/-- What becomes of a machine that accepts a witness. The log has one link more, and no refusal is
noted. As long as the keys are too few for every program that grants the action they wait in the
store; otherwise the path moves and all that was pending on it is gone. A path that closes ends the
machine, unless another one is disputed. -/
inductive Accepted (m : Machine) (w : Witness) : Machine → Prop where
  | collected {step : UInt64} (hstep : m.step.toNat + 1 = step.toNat)
      (hshort : ∀ p ∈ m.programs, p.grants w.method w.action w.path = true →
        p.satisfied (m.endorsing w) = false) :
      Accepted m w { m.linked w.id w.stamp step with
        error := none
        store := record m.store w.path w.action (m.endorsing w) }
  | moved {step : UInt64} {p : Program} {current goal : PathState}
      (hstep : m.step.toNat + 1 = step.toNat) (hprogram : p ∈ m.programs)
      (hgrants : p.grants w.method w.action w.path = true)
      (henough : p.satisfied (m.endorsing w) = true)
      (hstate : m.pathState? w.path = some current) (hnext : current.next? w.action = some goal)
      (hgoes : goal ≠ .closed ∨ ∃ l, l ≠ w.path ∧ m.pathState? l = some .disputed) :
      Accepted m w { m.linked w.id w.stamp step with
        error := none
        paths := m.paths.insert w.path goal
        store := m.store.erase w.path }
  | ended {step : UInt64} {p : Program} {current : PathState}
      (hstep : m.step.toNat + 1 = step.toNat) (hprogram : p ∈ m.programs)
      (hgrants : p.grants w.method w.action w.path = true)
      (henough : p.satisfied (m.endorsing w) = true)
      (hstate : m.pathState? w.path = some current) (hnext : current.next? w.action = some .closed)
      (hlast : ∀ l, l ≠ w.path → m.pathState? l ≠ some .disputed) :
      Accepted m w { m.linked w.id w.stamp step with
        error := none
        paths := m.paths.insert w.path .closed
        store := m.store.erase w.path
        output := some w.path
        closed := true
        closedAt := some w.stamp }

/-- A path that moves and leaves the machine going. -/
theorem settle_of_goes (hgoes : m.closesAt w.path goal = false) (step : UInt64) :
    (m.accepting w keys step).settle w.path goal w.stamp = { m.linked w.id w.stamp step with
      error := none
      paths := m.paths.insert w.path goal
      store := m.store.erase w.path } := by
  have hcloses : (m.accepting w keys step).closesAt w.path goal = false := hgoes
  have hstore : (m.accepting w keys step).store.erase w.path = m.store.erase w.path :=
    SortedMap.erase_insert _ _ _
  rw [settle_eq, hcloses, hstore]
  rfl

/-- A path that moves and ends the machine. -/
theorem settle_of_ends (hends : m.closesAt w.path goal = true) (step : UInt64) :
    (m.accepting w keys step).settle w.path goal w.stamp = { m.linked w.id w.stamp step with
      error := none
      paths := m.paths.insert w.path goal
      store := m.store.erase w.path
      output := some w.path
      closed := true
      closedAt := some w.stamp } := by
  have hcloses : (m.accepting w keys step).closesAt w.path goal = true := hends
  have hstore : (m.accepting w keys step).store.erase w.path = m.store.erase w.path :=
    SortedMap.erase_insert _ _ _
  rw [settle_eq, hcloses, hstore]
  rfl

theorem accepted_iff (h : m.Admitted w current goal keys) :
    Accepted m w n ↔
      ∃ step : UInt64, m.step.toNat + 1 = step.toNat ∧ n = m.committed w goal keys step := by
  have hkeys := h.keys_eq
  subst hkeys
  -- the state and the goal of an accepted witness are those that the gates have found
  have hsame : ∀ {current' goal'}, m.pathState? w.path = some current' →
      current'.next? w.action = some goal' → goal' = goal := by
    intro current' goal' hstate hnext
    obtain rfl := Option.some.inj (h.state.symm.trans hstate)
    exact Option.some.inj (hnext.symm.trans h.admits)
  have hmoves : ∀ {p : Program} (step : UInt64), p ∈ m.programs →
      p.grants w.method w.action w.path = true → p.satisfied (m.endorsing w) = true →
        m.committed w goal (m.endorsing w) step =
          (m.accepting w (m.endorsing w) step).settle w.path goal w.stamp := by
    intro p step hp hgrants henough
    exact if_pos (Program.firstSatisfied_isSome_iff.2 ⟨p, hp, hgrants, henough⟩)
  constructor
  · intro hn
    cases hn with
    | @collected step hstep hshort =>
      refine ⟨step, hstep, (if_neg ?_).symm⟩
      rw [Program.firstSatisfied_isSome_iff]
      rintro ⟨p, hp, hgrants, henough⟩
      rw [hshort p hp hgrants] at henough
      cases henough
    | @moved step p current' goal' hstep hp hgrants henough hstate hnext hgoes =>
      obtain rfl := hsame hstate hnext
      have hcloses : m.closesAt w.path goal' = false := by
        rw [← Bool.not_eq_true, closesAt_iff]
        rintro ⟨hclosed, hlast⟩
        rcases hgoes with hgoal | ⟨l, hl, hdisputed⟩
        · exact hgoal hclosed
        · exact hlast l hl hdisputed
      refine ⟨step, hstep, ?_⟩
      rw [hmoves step hp hgrants henough, settle_of_goes hcloses]
    | @ended step p current' hstep hp hgrants henough hstate hnext hlast =>
      obtain rfl := hsame hstate hnext
      refine ⟨step, hstep, ?_⟩
      rw [hmoves step hp hgrants henough, settle_of_ends (closesAt_iff.2 ⟨rfl, hlast⟩)]
  · rintro ⟨step, hstep, rfl⟩
    by_cases hprogram : (Program.firstSatisfied m.programs w.method w.action w.path
        (m.endorsing w)).isSome = true
    · obtain ⟨p, hp, hgrants, henough⟩ := Program.firstSatisfied_isSome_iff.1 hprogram
      rw [hmoves step hp hgrants henough]
      by_cases hcloses : m.closesAt w.path goal = true
      · rw [settle_of_ends hcloses]
        obtain ⟨rfl, hlast⟩ := closesAt_iff.1 hcloses
        exact .ended hstep hp hgrants henough h.state h.admits hlast
      · have hgoes : goal ≠ .closed ∨ ∃ l, l ≠ w.path ∧ m.pathState? l = some .disputed := by
          rw [closesAt_iff] at hcloses
          by_contra hnone
          push Not at hnone
          exact hcloses hnone
        rw [settle_of_goes (by simpa using hcloses)]
        exact .moved hstep hp hgrants henough h.state h.admits hgoes
    · have hcollects : m.committed w goal (m.endorsing w) step =
          m.accepting w (m.endorsing w) step := if_neg hprogram
      rw [hcollects]
      refine .collected hstep ?_
      intro p hp hgrants
      by_contra hnot
      exact hprogram (Program.firstSatisfied_isSome_iff.2 ⟨p, hp, hgrants, by simpa using hnot⟩)

/-! ## Acceptance -/

/-- An open machine whose counter has a next step accepts exactly the acceptable witnesses, and what
becomes of it is told in full. -/
theorem accepts_exactly (hopen : m.closed = false) (hroom : m.step.toNat + 1 < 2 ^ 64) :
    ((∃ n, m.apply w = .ok n) ↔ m.Acceptable w) ∧
      ∀ n, m.apply w = .ok n ↔ m.Acceptable w ∧ Accepted m w n := by
  have happly : ∀ n, m.apply w = .ok n ↔ m.Acceptable w ∧ Accepted m w n := by
    intro n
    rw [apply_eq_ok_iff hopen, acceptable_iff]
    constructor
    · rintro ⟨current, goal, keys, step, hadmitted, hstep, hn⟩
      exact ⟨⟨current, goal, keys, hadmitted⟩,
        (accepted_iff hadmitted).2 ⟨step, hstep, hn⟩⟩
    · rintro ⟨⟨current, goal, keys, hadmitted⟩, haccepted⟩
      obtain ⟨step, hstep, hn⟩ := (accepted_iff hadmitted).1 haccepted
      exact ⟨current, goal, keys, step, hadmitted, hstep, hn⟩
  refine ⟨⟨fun ⟨n, hn⟩ => ((happly n).1 hn).1, ?_⟩, happly⟩
  intro hacceptable
  obtain ⟨current, goal, keys, hadmitted⟩ := acceptable_iff.1 hacceptable
  obtain ⟨step, hstep, -⟩ := exists_commit hroom w.id w.stamp
  exact ⟨_, (apply_eq_ok_iff hopen).2 ⟨current, goal, keys, step, hadmitted, hstep, rfl⟩⟩

/-- The deposit takes in the buyer's word and then ends on the seller's. -/
theorem jointDeposit_accepts :
    ∃ m₀ m n, init jointDeposit = .ok m₀ ∧ m₀.apply buyerWitness = .ok m ∧
      m₀.Acceptable buyerWitness ∧ Accepted m₀ buyerWitness m ∧
        m.apply sellerWitness = .ok n ∧ Accepted m sellerWitness n ∧ n.output = some "deposit" := by
  have hrun : ((init jointDeposit).toOption.bind fun m₀ =>
      (m₀.apply buyerWitness).toOption.bind fun m =>
        (m.apply sellerWitness).toOption.map fun n => (m₀, m, n)).any
          (fun r => decide (r.1.closed = false) && decide (r.1.step.toNat + 1 < 2 ^ 64) &&
            decide (r.2.1.closed = false) && decide (r.2.1.step.toNat + 1 < 2 ^ 64) &&
              decide (r.2.2.output = some "deposit")) = true := by decide +kernel
  obtain ⟨⟨m₀, m, n⟩, hrun, hends⟩ := Option.any_eq_true _ _ |>.1 hrun
  simp only [Option.bind_eq_some_iff, Option.map_eq_some_iff, toOption_eq_some_iff,
    Prod.mk.injEq] at hrun
  obtain ⟨_, hinit, _, hm, _, hn, rfl, rfl, rfl⟩ := hrun
  simp only [Bool.and_eq_true, decide_eq_true_eq] at hends
  obtain ⟨⟨⟨⟨hopen₀, hroom₀⟩, hopen⟩, hroom⟩, houtput⟩ := hends
  obtain ⟨hacceptable, haccepted⟩ := ((accepts_exactly hopen₀ hroom₀).2 _).1 hm
  exact ⟨_, _, _, hinit, hm, hacceptable, haccepted, hn,
    (((accepts_exactly hopen hroom).2 _).1 hn).2, houtput⟩

/-! ### Two machines at the limits -/

/-- The deposit with a counter that has no next step. -/
def countedOut : Machine where
  vmid := .zero
  engine := engineLabel
  activeAt := 500
  expiresAt := 1500
  updatedAt := 500
  head := .zero
  step := 18446744073709551615
  paths := .ofList [("deposit", .open)]
  programs := jointDeposit.programs.map .ofTerms
  store := .empty
  commits := []
  tasks := []
  output := none
  error := none
  closed := false
  closedAt := none

/-- The buyer's word at that step. -/
def lastWitness : Witness where
  vmid := .zero
  method := .endorse
  action := .close
  path := "deposit"
  stamp := 510
  step := 18446744073709551615
  endorsements := [⟨buyerKey, ⟨takeBytes 64
    (bigEndian 32 0xdc0f9374233a00697d69716c6cdd4b258580cf4ddb4e2acd84bdc4721d5882e1 ++
      bigEndian 32 0x687f8da2c8b59534911662d51d6a6591865d4c9eeeaa4de7be6929e97e4fca05)⟩⟩]

/-- Two paths that are both in dispute, which no run brings about. -/
def disputedTwice : Machine :=
  { countedOut with
    step := 0
    paths := .ofList [("deposit", .disputed), ("refund", .disputed)]
    programs := [.ofTerms ⟨.endorse, .tokens ["resolve"], .tokens ["deposit"], 1, [buyerKey]⟩] }

/-- The buyer's word to resolve the dispute about the deposit. -/
def resolveWitness : Witness where
  vmid := .zero
  method := .endorse
  action := .resolve
  path := "deposit"
  stamp := 510
  step := 0
  endorsements := [⟨buyerKey, ⟨takeBytes 64
    (bigEndian 32 0xe051c80c6a7e0586a877a099351d4b2266f92e47cacb40fe66aa7f2dd1095471 ++
      bigEndian 32 0x5144e91f479ca704fa252bb9da84dedbe41eb8018741fd9cc6d6c640cd193c0c)⟩⟩]

/-- An acceptable witness halts a machine whose counter has no next step, and a path that closes
beside another dispute leaves the machine open. -/
theorem acceptance_limits :
    (countedOut.closed = false ∧ countedOut.Acceptable lastWitness ∧
      countedOut.apply lastWitness = .error .overflow) ∧
    ∃ n, disputedTwice.closed = false ∧ disputedTwice.apply resolveWitness = .ok n ∧
      n.pathState? "deposit" = some .closed ∧ n.closed = false := by
  constructor
  · have hchecked : (match countedOut.check lastWitness with
        | .ok _ => decide (({ countedOut with error := none } : Machine).commit lastWitness.id
            lastWitness.stamp = none)
        | .error _ => false) = true := by decide +kernel
    cases hcheck : countedOut.check lastWitness with
    | error e =>
      rw [hcheck] at hchecked
      cases hchecked
    | ok r =>
      obtain ⟨goal, keys⟩ := r
      rw [hcheck] at hchecked
      obtain ⟨current, hadmitted⟩ := check_eq_ok_iff.1 hcheck
      refine ⟨rfl, acceptable_iff.2 ⟨current, goal, keys, hadmitted⟩, ?_⟩
      unfold apply
      rw [hcheck, of_decide_eq_true hchecked]
      rfl
  · have hrun : ((disputedTwice.apply resolveWitness).toOption.any fun n =>
        decide (n.pathState? "deposit" = some .closed) && decide (n.closed = false)) = true := by
      decide +kernel
    obtain ⟨n, hn, hends⟩ := Option.any_eq_true _ _ |>.1 hrun
    simp only [Bool.and_eq_true, decide_eq_true_eq] at hends
    exact ⟨n, rfl, toOption_eq_some_iff.1 hn, hends.1, hends.2⟩

end Machine

end JointEscrow
