import JointEscrow.Proofs.Contract.Standing

/-!
# The life of a contract as a whole

A session is what the authority keeps of one contract: the record, the machine since activation, and
the deposits last reported. `Step` lists what can happen to it, in any order that the operations
themselves allow, and `Sound` is what holds throughout: the record is the one of its proposal, in
good standing, with the figures of the deposits, and the machine is the one of its activation after
some inputs (`sound_of_steps`).
-/

namespace JointEscrow

/-- What the authority keeps of a contract: the deposits are those of the last report. -/
structure Session where
  contract : Contract
  machine : Option Machine
  deposits : List Deposit

/-- The session of a fresh contract. -/
def Session.ofFresh (c : Contract) : Session := ⟨c, none, []⟩

/-- One operation under the authority's key, or one input of the machine. -/
inductive Session.Step (key : KeyPair) (s : Session) : Session → Prop where
  | fund {deposits : List Deposit} {ch : Change} (h : s.contract.fund deposits = .ok ch) :
      Step key s { s with contract := ch.contract, deposits := deposits }
  | cancel {time : UInt64} {ch : Change} (h : s.contract.cancel key time = .ok ch) :
      Step key s { s with contract := ch.contract }
  | activate {time : UInt64} {ch : Change} {m : Machine}
      (h : s.contract.activate key time = .ok (ch, m)) :
      Step key s { s with contract := ch.contract, machine := some m }
  | input {m n : Machine} {i : Input} (hm : s.machine = some m)
      (h : m.accept i = some n) : Step key s { s with machine := some n }
  | close {m : Machine} {ch : Change} (hm : s.machine = some m)
      (h : s.contract.close m key = .ok ch) : Step key s { s with contract := ch.contract }
  | spend {m : Machine} {deposits : List Deposit} {time : UInt64} {ch : Change}
      (hm : s.machine = some m) (h : s.contract.spend m deposits key time = .ok ch) :
      Step key s { s with contract := ch.contract }
  | settle {time : UInt64} {ch : Change} (h : s.contract.settle key time = .ok ch) :
      Step key s { s with contract := ch.contract }

/-- Any number of steps. -/
abbrev Session.Steps (key : KeyPair) : Session → Session → Prop :=
  Relation.ReflTransGen (Session.Step key)

/-! ## What holds throughout -/

namespace Contract

/-- The figures of the record are those of the deposits. -/
def Tabulated (c : Contract) (deposits : List Deposit) : Prop :=
  c.withTotals (c.tabulate deposits) = c

/-- The machine is the one that the contract's activation started, after some inputs. -/
def Operates (c : Contract) (m : Machine) : Prop :=
  ∃ config m₀ inputs, c.machineConfig = .ok config ∧ Machine.start config = .ok m₀ ∧
    m₀.replay inputs = some m ∧ config.vmid = c.machineId config.activeAt ∧
      config.activeAt.toNat + c.terms.duration.toNat = config.expiresAt.toNat

/-- The contract has taken over the result of the machine. -/
def ConcludedBy (c : Contract) (m : Machine) : Prop :=
  m.closed = true ∧ m.closedAt = c.closedAt ∧ some m.head = c.engineHead ∧ m.output = c.engineVout

theorem tabulated_withTotals (c : Contract) (deposits : List Deposit) :
    (c.withTotals (c.tabulate deposits)).Tabulated deposits := rfl

theorem Tabulated.signed {c : Contract} {deposits : List Deposit} (h : c.Tabulated deposits)
    (sigs : ProofLog Status) : (c.signed sigs).Tabulated deposits :=
  congrArg (fun c : Contract => c.signed sigs) h

end Contract

namespace Session

variable {key : KeyPair} {c₀ : Contract} {s t : Session} {m : Machine}

/-- The state of a session that began with the record `c₀`. -/
structure Sound (key : KeyPair) (c₀ : Contract) (s : Session) : Prop where
  core : s.contract.core = c₀.core
  standing : s.contract.Standing key
  tabulated : s.contract.Tabulated s.deposits
  operates : s.contract.activated = true → ∃ m, s.machine = some m ∧ s.contract.Operates m
  concluded : s.contract.closed = true → ∃ m, s.machine = some m ∧ s.contract.ConcludedBy m

theorem Sound.step (h : Sound key c₀ s) (hstep : Step key s t) : Sound key c₀ t := by
  cases hstep with
  | fund hfund =>
    obtain ⟨-, -, rfl⟩ := Contract.fund_eq_ok_iff.1 hfund
    exact ⟨h.core, h.standing.withTotals _, rfl, h.operates, h.concluded⟩
  | @cancel time ch hcancel =>
    have hstanding := h.standing.step (.cancel hcancel)
    obtain ⟨-, -, -, next, hrecord, rfl⟩ := Contract.cancel_eq_ok_iff.1 hcancel
    obtain ⟨-, note, sigs, -, -, rfl⟩ := Contract.recordStatus_eq_ok_iff.1 hrecord
    have htabulated : (s.contract.withdrawn time).Tabulated s.deposits :=
      congrArg (fun c : Contract => c.withdrawn time) h.tabulated
    exact ⟨h.core, hstanding, htabulated.signed sigs, h.operates, h.concluded⟩
  | @activate time ch m hactivate =>
    have hstanding := h.standing.step (.activate hactivate)
    obtain ⟨hcheck, expiresAt, config, next, hexpiry, hconfig, hstart, hrecord, rfl⟩ :=
      Contract.activate_eq_ok_iff.1 hactivate
    obtain ⟨-, note, sigs, -, -, rfl⟩ := Contract.recordStatus_eq_ok_iff.1 hrecord
    obtain ⟨hactive, hexpires, hvmid, -⟩ := Contract.machineConfig_eq_ok_iff.1 hconfig
    have hactive : time = config.activeAt := Option.some.inj hactive
    have hexpires : expiresAt = config.expiresAt := Option.some.inj hexpires
    have hvmid : s.contract.machineId time = config.vmid := Option.some.inj hvmid
    have htabulated : (s.contract.started time (s.contract.machineId time) expiresAt).Tabulated
        s.deposits :=
      congrArg (fun c : Contract => c.started time (s.contract.machineId time) expiresAt)
        h.tabulated
    refine ⟨h.core, hstanding, htabulated.signed sigs, ?_, ?_⟩
    · intro _
      refine ⟨m, rfl, config, m, [], hconfig, hstart, rfl, ?_, ?_⟩
      · rw [← hvmid, ← hactive]
        rfl
      · rw [← hactive, ← hexpires]
        exact hexpiry
    · intro hclosed
      -- a record that can still be activated has not been closed
      have hflag := h.standing.flags .closed
      rw [(Contract.checkActivation_eq_ok_iff.1 hcheck).1] at hflag
      exact absurd (hflag.symm.trans hclosed) (by decide)
  | @input m n i hm haccept =>
    refine ⟨h.core, h.standing, h.tabulated, ?_, ?_⟩
    · intro hactivated
      obtain ⟨m', hm', config, m₀, inputs, hconfig, hstart, hrun, hvmid, hexpiry⟩ :=
        h.operates hactivated
      cases hm.symm.trans hm'
      exact ⟨n, rfl, config, m₀, inputs ++ [i], hconfig, hstart,
        Machine.replay_snoc_eq_some_iff.2 ⟨m, hrun, haccept⟩, hvmid, hexpiry⟩
    · intro hclosed
      obtain ⟨m', hm', hconcluded⟩ := h.concluded hclosed
      cases hm.symm.trans hm'
      -- the machine that the contract was closed with ignores every input
      cases (Machine.accept_of_closed hconcluded.1 i).symm.trans haccept
      exact ⟨m, rfl, hconcluded⟩
  | @close m ch hm hclose =>
    have hstanding := h.standing.step (.close hclose)
    obtain ⟨-, -, hclosed, time, next, htime, hrecord, rfl⟩ := Contract.close_eq_ok_iff.1 hclose
    obtain ⟨-, note, sigs, -, -, rfl⟩ := Contract.recordStatus_eq_ok_iff.1 hrecord
    have htabulated : (s.contract.ended m time).Tabulated s.deposits :=
      congrArg (fun c : Contract => c.ended m time) h.tabulated
    exact ⟨h.core, hstanding, htabulated.signed sigs, h.operates,
      fun _ => ⟨m, hm, hclosed, htime, rfl, rfl⟩⟩
  | @spend m deposits time ch hm hspend =>
    have hstanding := h.standing.step (.spend hspend)
    obtain ⟨-, -, -, _, txid, next, -, -, hrecord, rfl⟩ := Contract.spend_eq_ok_iff.1 hspend
    obtain ⟨-, note, sigs, -, -, rfl⟩ := Contract.recordStatus_eq_ok_iff.1 hrecord
    have htabulated : (s.contract.paid txid time).Tabulated s.deposits :=
      congrArg (fun c : Contract => c.paid txid time) h.tabulated
    exact ⟨h.core, hstanding, htabulated.signed sigs, h.operates, h.concluded⟩
  | @settle time ch hsettle =>
    have hstanding := h.standing.step (.settle hsettle)
    obtain ⟨-, next, hrecord, rfl⟩ := Contract.settle_eq_ok_iff.1 hsettle
    obtain ⟨-, note, sigs, -, -, rfl⟩ := Contract.recordStatus_eq_ok_iff.1 hrecord
    have htabulated : (s.contract.finished time).Tabulated s.deposits :=
      congrArg (fun c : Contract => c.finished time) h.tabulated
    exact ⟨h.core, hstanding, htabulated.signed sigs, h.operates, h.concluded⟩

theorem sound_of_create {options : PublishOptions} {policy : ServerPolicy} {r : PublishRequest}
    {now : UInt64} {ch : Change} (h : Contract.create options policy r key now = .ok ch) :
    Sound key ch.contract (.ofFresh ch.contract) := by
  have hstanding := Contract.standing_of_create h
  obtain ⟨outputs, cid, fees, subtotal, sigs, -, -, -, -, rfl⟩ := Contract.fresh_of_create h
  exact ⟨rfl, hstanding, (Contract.tabulated_withTotals _ _).signed sigs, nofun, nofun⟩

theorem sound_of_steps (h : Sound key c₀ s) (hsteps : Steps key s t) : Sound key c₀ t := by
  induction hsteps with
  | refl => exact h
  | tail _ hstep ih => exact ih.step hstep

end Session

/-! ### A delayed gift -/

def escrowKey : KeyPair := ⟨Vector.replicate 32 99⟩

/-- A sum that goes to its only payee after ten seconds. -/
def delayedGift : Proposal where
  title := "gift"
  content := ""
  createdAt := 0
  deadline := none
  effective := none
  duration := 60
  feerate := none
  moderator := none
  network := .regtest
  paths := [⟨"gift", 1000, "alice"⟩]
  payments := []
  programs := []
  schedule := [⟨10, .close, .any⟩]
  value := 1000
  version := 1

/-- More than the gift and its fees, confirmed. -/
def giftDeposit : Deposit := ⟨⟨.zero, 0, 2000, []⟩, true⟩

/-- The life of the gift: funded with its deposit, closed by the clock, and spent with the deposit or,
for comparison, with no deposit at all. -/
structure GiftRun where
  published : Change
  funded : Change
  active : Change
  started : Machine
  machine : Machine
  closed : Change
  spent : Change
  bare : Change
  creates : Contract.create {} {} ⟨delayedGift, []⟩ escrowKey 0 = .ok published
  funds : published.contract.fund [giftDeposit] = .ok funded
  activates : funded.contract.activate escrowKey 0 = .ok (active, started)
  waits : started.accept (.clock 10) = some machine
  closes : active.contract.close machine escrowKey = .ok closed
  spends : closed.contract.spend machine [giftDeposit] escrowKey 20 = .ok spent
  spendsBare : closed.contract.spend machine [] escrowKey 20 = .ok bare

/-- The two ways in which the gift is spent. -/
def giftResults : Option (Change × Change) := do
  let published ← (Contract.create {} {} ⟨delayedGift, []⟩ escrowKey 0).toOption
  let funded ← (published.contract.fund [giftDeposit]).toOption
  let (active, started) ← (funded.contract.activate escrowKey 0).toOption
  let machine ← started.accept (.clock 10)
  let closed ← (active.contract.close machine escrowKey).toOption
  let spent ← (closed.contract.spend machine [giftDeposit] escrowKey 20).toOption
  let bare ← (closed.contract.spend machine [] escrowKey 20).toOption
  return (spent, bare)

theorem nonempty_giftRun : Nonempty GiftRun := by
  have hsome : giftResults.isSome = true := by decide +kernel
  obtain ⟨results, hresults⟩ := Option.isSome_iff_exists.1 hsome
  unfold giftResults at hresults
  simp only [Option.bind_eq_bind, Option.bind_eq_some_iff, toOption_eq_some_iff] at hresults
  obtain ⟨_, hcreate, _, hfund, ⟨_, _⟩, hactivate, _, hwait, _, hclose, _, hspend, _, hbare, -⟩ :=
    hresults
  exact ⟨⟨_, _, _, _, _, _, _, _, hcreate, hfund, hactivate, hwait, hclose, hspend, hbare⟩⟩

namespace GiftRun

variable (run : GiftRun)

/-- The session at the activation of the gift. -/
theorem steps_funded : Session.Steps escrowKey (.ofFresh run.published.contract)
    ⟨run.funded.contract, none, [giftDeposit]⟩ :=
  Relation.ReflTransGen.single (.fund run.funds)

theorem step_driven : Session.Step escrowKey
    ⟨run.active.contract, some run.started, [giftDeposit]⟩
    ⟨run.active.contract, some run.machine, [giftDeposit]⟩ := .input rfl run.waits

theorem step_closed : Session.Step escrowKey
    ⟨run.active.contract, some run.machine, [giftDeposit]⟩
    ⟨run.closed.contract, some run.machine, [giftDeposit]⟩ := .close rfl run.closes

/-- The session from its activation up to the end of its machine. -/
theorem steps_closed : Session.Steps escrowKey
    ⟨run.active.contract, some run.started, [giftDeposit]⟩
    ⟨run.closed.contract, some run.machine, [giftDeposit]⟩ :=
  (Relation.ReflTransGen.single run.step_driven).tail run.step_closed

/-- The session until its machine has closed and the contract has not. -/
theorem steps_driven : Session.Steps escrowKey (.ofFresh run.published.contract)
    ⟨run.active.contract, some run.machine, [giftDeposit]⟩ := by
  have hactive : Session.Step escrowKey ⟨run.funded.contract, none, [giftDeposit]⟩
      ⟨run.active.contract, some run.started, [giftDeposit]⟩ := .activate run.activates
  exact (run.steps_funded.tail hactive).tail run.step_driven

theorem steps : Session.Steps escrowKey (.ofFresh run.published.contract)
    ⟨run.closed.contract, some run.machine, [giftDeposit]⟩ :=
  run.steps_driven.tail run.step_closed

theorem steps_spent : Session.Steps escrowKey (.ofFresh run.published.contract)
    ⟨run.spent.contract, some run.machine, [giftDeposit]⟩ :=
  run.steps.tail (.spend rfl run.spends)

/-- The time in which the funded gift can be activated, and the terms that it is activated with. -/
theorem funded_window : run.funded.contract.createdAt = 0 ∧
    run.funded.contract.deadline = 7200 ∧ run.funded.contract.terms = delayedGift := by
  obtain ⟨outputs, cid, fees, subtotal, sigs, -, -, -, -, hpublished⟩ :=
    Contract.fresh_of_create run.creates
  obtain ⟨-, -, hfunded⟩ := Contract.fund_eq_ok_iff.1 run.funds
  rw [hfunded, hpublished]
  exact ⟨rfl, rfl, rfl⟩

end GiftRun

end JointEscrow
