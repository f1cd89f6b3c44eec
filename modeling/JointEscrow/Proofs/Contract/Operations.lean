import JointEscrow.Contract.Lifecycle
import JointEscrow.Proofs.Machine.LogChain
import JointEscrow.Proofs.Notary

/-!
# What the operations on a contract do

One lemma for each operation: when it succeeds, and what record it leaves. Every change of status
first writes the fields of the new status and then adds its proof, so each lemma comes in these two
parts; `recordStatus_eq_ok_iff` is the second of them.
-/

namespace JointEscrow.Contract

variable {c n : Contract} {ch : Change} {key : KeyPair} {time : UInt64} {deposits : List Deposit}
  {m : Machine}

/-- The record with its log of proofs replaced. -/
def signed (c : Contract) (sigs : ProofLog Status) : Contract := { c with sigs := sigs }

theorem signed_congr {sigs : ProofLog Status} (h : c.signed sigs = n.signed sigs)
    (next : ProofLog Status) : c.signed next = n.signed next := congrArg (·.signed next) h

/-! ## The fields of a new status -/

/-- The record of a contract that its authority takes back. -/
def withdrawn (c : Contract) (time : UInt64) : Contract :=
  { c with
    canceled := true
    canceledAt := some time
    status := .canceled }

/-- The record of a contract that becomes active. -/
def started (c : Contract) (time : UInt64) (vmid : Digest) (expiresAt : UInt64) : Contract :=
  { c with
    activated := true
    activeAt := some time
    engineVmid := some vmid
    expiresAt := some expiresAt
    status := .active }

/-- The record of a contract that its machine has closed. -/
def ended (c : Contract) (m : Machine) (time : UInt64) : Contract :=
  { c with
    closed := true
    closedAt := some time
    engineHead := some m.head
    engineVout := m.output
    status := .closed }

/-- The record of a contract whose settlement is signed. -/
def paid (c : Contract) (txid : Digest) (time : UInt64) : Contract :=
  { c with
    spent := true
    spentAt := some time
    spentTxid := some txid
    status := .spent }

/-- The record of a contract that has settled. -/
def finished (c : Contract) (time : UInt64) : Contract :=
  { c with
    settled := true
    settledAt := some time
    status := .settled }

/-- The part of a record that no operation after its publication writes. -/
def core (c : Contract) : Contract :=
  { c with
    activated := false
    activeAt := none
    canceled := false
    canceledAt := none
    closed := false
    closedAt := none
    engineHead := none
    engineVmid := none
    engineVout := none
    expiresAt := none
    fundCount := 0
    fundPend := 0
    fundValue := 0
    settled := false
    settledAt := none
    sigs := []
    spent := false
    spentAt := none
    spentTxid := none
    status := .published
    txFees := 0
    txTotal := 0
    txVsize := 0
    vinCount := 0 }

/-- The identifier of the machine that a contract gets at a time. -/
def machineId (c : Contract) (time : UInt64) : Digest :=
  (MachineOrigin.mk c.cid time c.engineLabel).id

/-- A record with its figures, before its first proof. -/
def fresh (options : PublishOptions) (policy : ServerPolicy) (p : Proposal) (authority : PublicKey)
    (now : UInt64) (outputs : List SpendTemplate) (cid : Digest) (subtotal : UInt64) : Contract :=
  let c := draft options policy p authority now outputs cid (chooseFeerate options policy p) subtotal
  c.withTotals (c.tabulate [])

/-! ## The operations -/

theorem recordStatus_eq_ok_iff :
    c.recordStatus key = .ok n ↔
      key.publicKey = c.serverPk ∧ ∃ note sigs, c.statusNote c.status = .ok note ∧
        c.sigs.update? (notarize c.status note key) = some sigs ∧ n = c.signed sigs := by
  unfold recordStatus
  by_cases hkey : key.publicKey = c.serverPk
  · rw [if_neg (by simp [hkey])]
    simp only [notarizeStatus, bind_eq_ok_iff, mapError_eq_ok_iff, pure_eq_ok_iff, ProofLog.update,
      hkey, true_and]
    constructor
    · rintro ⟨_, ⟨note, hnote, rfl⟩, sigs, hsigs, rfl⟩
      refine ⟨note, sigs, hnote, ?_, rfl⟩
      split at hsigs
      · next l hl =>
        cases hsigs
        exact hl
      · cases hsigs
    · rintro ⟨note, sigs, hnote, hsigs, rfl⟩
      exact ⟨_, ⟨note, hnote, rfl⟩, sigs, by rw [hsigs], rfl⟩
  · rw [if_pos hkey]
    simp [hkey]

theorem fund_eq_ok_iff :
    c.fund deposits = .ok ch ↔
      c.canceled = false ∧ c.spent = false ∧ ch = ⟨c.withTotals (c.tabulate deposits),
        .funded c.cid (c.tabulate deposits).fundValue (c.tabulate deposits).fundPend
          (c.tabulate deposits).txTotal⟩ := by
  unfold fund
  rw [check_bind_eq_ok_iff, ensure_eq_ok_iff, Bool.not_eq_true', Bool.or_eq_false_iff]
  constructor
  · rintro ⟨⟨hcanceled, hspent⟩, h⟩
    exact ⟨hcanceled, hspent, (pure_eq_ok_iff.1 h).symm⟩
  · rintro ⟨hcanceled, hspent, rfl⟩
    exact ⟨⟨hcanceled, hspent⟩, rfl⟩

theorem cancel_eq_ok_iff :
    c.cancel key time = .ok ch ↔
      c.status = .published ∧ (c.activated = false ∧ c.canceled = false) ∧
        (c.createdAt ≤ time ∧ time ≤ c.deadline) ∧
          ∃ next, (c.withdrawn time).recordStatus key = .ok next ∧
            ch = ⟨next, .canceled next.cid time⟩ := by
  unfold cancel requireStatus
  rw [check_bind_eq_ok_iff, check_bind_eq_ok_iff, check_bind_eq_ok_iff]
  simp only [bind_eq_ok_iff, ensure_eq_ok_iff, pure_eq_ok_iff, decide_eq_true_eq,
    Bool.not_eq_true', Bool.or_eq_false_iff, Bool.and_eq_true]
  constructor
  · rintro ⟨hstatus, hflags, hwindow, next, hnext, rfl⟩
    exact ⟨hstatus, hflags, hwindow, next, hnext, rfl⟩
  · rintro ⟨hstatus, hflags, hwindow, next, hnext, rfl⟩
    exact ⟨hstatus, hflags, hwindow, next, hnext, rfl⟩

theorem checkActivation_eq_ok_iff :
    c.checkActivation time = .ok () ↔
      c.status = .published ∧ (c.canceled = false ∧ c.activated = false) ∧
        c.engineLabel = JointEscrow.engineLabel ∧ (c.createdAt ≤ time ∧ time ≤ c.deadline) ∧
          c.txTotal ≤ c.fundValue := by
  unfold checkActivation requireStatus
  simp only [check_bind_eq_ok_iff, ensure_eq_ok_iff, decide_eq_true_eq, Bool.not_eq_true',
    Bool.or_eq_false_iff, Bool.and_eq_true]

theorem machineConfig_eq_ok_iff {config : MachineConfig} :
    c.machineConfig = .ok config ↔
      c.activeAt = some config.activeAt ∧ c.expiresAt = some config.expiresAt ∧
        c.engineVmid = some config.vmid ∧ config.engine = c.engineLabel ∧
          config.pathnames = pathLabels c.terms.paths ∧ config.programs = c.terms.programs ∧
            config.schedule = c.terms.schedule := by
  unfold machineConfig
  cases c.activeAt with
  | none => simp
  | some activeAt =>
    cases c.expiresAt with
    | none => simp
    | some expiresAt =>
      cases c.engineVmid with
      | none => simp
      | some vmid =>
        cases config
        simp only [Except.ok.injEq, MachineConfig.mk.injEq, Option.some.injEq]
        grind

theorem activate_eq_ok_iff :
    c.activate key time = .ok (ch, m) ↔
      c.checkActivation time = .ok () ∧ ∃ expiresAt config next,
        time.toNat + c.terms.duration.toNat = expiresAt.toNat ∧
          (c.started time (c.machineId time) expiresAt).machineConfig = .ok config ∧
            Machine.start config = .ok m ∧
              (c.started time (c.machineId time) expiresAt).recordStatus key = .ok next ∧
                ch = ⟨next, .activated next.cid (c.machineId time) time expiresAt⟩ := by
  unfold activate
  rw [check_bind_eq_ok_iff, mapError_eq_ok_iff]
  simp only [bind_eq_ok_iff, mapError_eq_ok_iff, pure_eq_ok_iff, addOrHalt_eq_ok_iff]
  constructor
  · rintro ⟨hcheck, expiresAt, hexpiry, config, hconfig, machine, hmachine, next, hnext, h⟩
    cases h
    exact ⟨hcheck, expiresAt, config, next, hexpiry, hconfig, hmachine, hnext, rfl⟩
  · rintro ⟨hcheck, expiresAt, config, next, hexpiry, hconfig, hmachine, hnext, rfl⟩
    exact ⟨hcheck, expiresAt, hexpiry, config, hconfig, m, hmachine, next, hnext, rfl⟩

theorem close_eq_ok_iff :
    c.close m key = .ok ch ↔
      c.status = .active ∧ c.engineVmid = some m.vmid ∧ m.closed = true ∧
        ∃ time next, m.closedAt = some time ∧ (c.ended m time).recordStatus key = .ok next ∧
          ch = ⟨next, .closed next.cid m.head m.output time⟩ := by
  unfold close requireStatus
  rw [check_bind_eq_ok_iff, check_bind_eq_ok_iff]
  simp only [ensure_eq_ok_iff, decide_eq_true_eq]
  cases hclosed : m.closed with
  | false => simp
  | true =>
    cases htime : m.closedAt with
    | none => simp
    | some time =>
      simp only [if_true, bind_eq_ok_iff, pure_eq_ok_iff, true_and, Option.some.injEq]
      constructor
      · rintro ⟨hstatus, hvmid, next, hnext, rfl⟩
        exact ⟨hstatus, hvmid, time, next, rfl, hnext, rfl⟩
      · rintro ⟨hstatus, hvmid, _, next, rfl, hnext, rfl⟩
        exact ⟨hstatus, hvmid, next, hnext, rfl⟩

theorem settlement_eq_ok_iff {s : Settlement} :
    c.settlement deposits = .ok s ↔
      c.closed = true ∧ ∃ label t template, c.engineVout = some label ∧
        c.template? label = some t ∧ t.bytes = .ok template ∧
          s = ⟨label, template, (deposits.filter (·.confirmed)).map (·.utxo)⟩ := by
  unfold settlement
  rw [check_bind_eq_ok_iff, ensure_eq_ok_iff]
  cases hlabel : c.engineVout with
  | none => simp
  | some label =>
    cases htemplate : c.template? label with
    | none => simp [htemplate]
    | some t =>
      simp only [htemplate, bind_eq_ok_iff, mapError_eq_ok_iff, pure_eq_ok_iff]
      constructor
      · rintro ⟨hclosed, template, hbytes, rfl⟩
        exact ⟨hclosed, label, t, template, rfl, htemplate, hbytes, rfl⟩
      · rintro ⟨hclosed, label', t', template, hlabel', ht, hbytes, rfl⟩
        cases hlabel'
        rw [htemplate] at ht
        cases ht
        exact ⟨hclosed, template, hbytes, rfl⟩

theorem spend_eq_ok_iff :
    c.spend m deposits key time = .ok ch ↔
      c.status = .closed ∧ m.output.isSome = true ∧ m.output = c.engineVout ∧
        ∃ s txid next, c.settlement deposits = .ok s ∧ s.txid = .ok txid ∧
          (c.paid txid time).recordStatus key = .ok next ∧
            ch = ⟨next, .spent next.cid txid time⟩ := by
  unfold spend requireStatus
  rw [check_bind_eq_ok_iff, check_bind_eq_ok_iff]
  simp only [bind_eq_ok_iff, ensure_eq_ok_iff, mapError_eq_ok_iff, pure_eq_ok_iff,
    decide_eq_true_eq, Bool.and_eq_true]
  constructor
  · rintro ⟨hstatus, ⟨hsome, houtput⟩, s, hs, txid, htxid, next, hnext, rfl⟩
    exact ⟨hstatus, hsome, houtput, s, txid, next, hs, htxid, hnext, rfl⟩
  · rintro ⟨hstatus, hsome, houtput, s, txid, next, hs, htxid, hnext, rfl⟩
    exact ⟨hstatus, ⟨hsome, houtput⟩, s, hs, txid, htxid, next, hnext, rfl⟩

theorem settle_eq_ok_iff :
    c.settle key time = .ok ch ↔
      c.status = .spent ∧ ∃ next, (c.finished time).recordStatus key = .ok next ∧
        ch = ⟨next, .settled next.cid time⟩ := by
  unfold settle requireStatus
  rw [check_bind_eq_ok_iff]
  simp only [bind_eq_ok_iff, ensure_eq_ok_iff, pure_eq_ok_iff, decide_eq_true_eq]
  constructor
  · rintro ⟨hstatus, next, hnext, rfl⟩
    exact ⟨hstatus, next, hnext, rfl⟩
  · rintro ⟨hstatus, next, hnext, rfl⟩
    exact ⟨hstatus, next, hnext, rfl⟩

theorem create_eq_ok_iff {options : PublishOptions} {policy : ServerPolicy} {r : PublishRequest} :
    create options policy r key time = .ok ch ↔
      r.verify policy = .ok () ∧ ∃ outputs cid fees subtotal next,
        r.proposal.spendTemplates options.fees = .ok outputs ∧
          contractId outputs r.proposal.id time = .ok cid ∧
            policy.checkFeerate (chooseFeerate options policy r.proposal) = .ok () ∧
              paymentTotal options.fees = .ok fees ∧
                totalOf [r.proposal.value, fees] "contract subtotal" = .ok subtotal ∧
                  (fresh options policy r.proposal key.publicKey time outputs cid
                    subtotal).recordStatus key = .ok next ∧ ch = ⟨next, .published cid⟩ := by
  unfold create
  rw [check_bind_eq_ok_iff]
  simp only [bind_eq_ok_iff, mapError_eq_ok_iff, pure_eq_ok_iff]
  constructor
  · rintro ⟨hverify, outputs, houtputs, cid, hcid, ⟨⟩, hrate, fees, hfees, subtotal, hsubtotal, next,
      hnext, rfl⟩
    exact ⟨hverify, outputs, cid, fees, subtotal, next, houtputs, hcid, hrate, hfees, hsubtotal,
      hnext, rfl⟩
  · rintro ⟨hverify, outputs, cid, fees, subtotal, next, houtputs, hcid, hrate, hfees, hsubtotal,
      hnext, rfl⟩
    exact ⟨hverify, outputs, houtputs, cid, hcid, (), hrate, fees, hfees, subtotal, hsubtotal, next,
      hnext, rfl⟩

/-- What is published is a fresh record with a log of proofs. -/
theorem fresh_of_create {options : PublishOptions} {policy : ServerPolicy} {r : PublishRequest}
    (h : create options policy r key time = .ok ch) :
    ∃ outputs cid fees subtotal sigs, r.proposal.spendTemplates options.fees = .ok outputs ∧
      contractId outputs r.proposal.id time = .ok cid ∧ paymentTotal options.fees = .ok fees ∧
        totalOf [r.proposal.value, fees] "contract subtotal" = .ok subtotal ∧
          ch = ⟨(fresh options policy r.proposal key.publicKey time outputs cid
            subtotal).signed sigs, .published cid⟩ := by
  obtain ⟨-, outputs, cid, fees, subtotal, next, houtputs, hcid, -, hfees, hsubtotal, hrecord,
    rfl⟩ := create_eq_ok_iff.1 h
  obtain ⟨-, note, sigs, -, -, rfl⟩ := recordStatus_eq_ok_iff.1 hrecord
  exact ⟨outputs, cid, fees, subtotal, sigs, houtputs, hcid, hfees, hsubtotal, rfl⟩

/-- What is published has valid terms. -/
theorem valid_of_create {options : PublishOptions} {policy : ServerPolicy} {r : PublishRequest}
    (h : create options policy r key time = .ok ch) : r.proposal.validate = .ok () := by
  have hverify := (create_eq_ok_iff.1 h).1
  exact mapError_eq_ok_iff.1 (check_bind_eq_ok_iff.1 hverify).1

end JointEscrow.Contract
