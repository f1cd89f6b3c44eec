import JointEscrow.Proofs.Contract.Audit
import JointEscrow.Proofs.Machine.Disputes
import JointEscrow.Proofs.Payout.Encoding
import JointEscrow.Proofs.Terms.Validity

/-!
# A published contract is never stuck

A proposal is checked at its publication, and the configuration of a machine at its start. The first
check covers the second (`startable_of_validate`), and a label that is declared once keeps its
template and its path. So under its authority's key a contract can be activated, closed, spent and
settled whenever its status, its window, its funds and its machine admit it, and what is refused is
refused for one of these reasons (`live_of_steps`).
-/

namespace JointEscrow

/-! ## The start of a machine -/

/-- A valid proposal makes a configuration that a machine starts from. -/
theorem MachineConfig.startable_of_validate {p : Proposal} {config : MachineConfig}
    (h : p.validate = .ok ()) (hpaths : config.pathnames = pathLabels p.paths)
    (hprograms : config.programs = p.programs) (hschedule : config.schedule = p.schedule)
    (hspan : config.activeAt.toNat + p.duration.toNat = config.expiresAt.toNat) :
    config.Startable := by
  obtain ⟨-, -, hduration, hnonempty, hentries, -, -, hvalid, hdue⟩ :=
    Proposal.validate_eq_ok_iff.1 h
  have hpositive : 0 < p.duration.toNat := by
    have hne : p.duration.toNat ≠ 0 := fun hzero => hduration (UInt64.toNat_inj.1 hzero)
    omega
  have hbefore : config.activeAt < config.expiresAt := by
    rw [UInt64.lt_iff_toNat_lt]
    omega
  have hsame : config.duration = p.duration := by
    rw [← UInt64.toNat_inj, MachineConfig.duration,
      UInt64.toNat_sub_of_le _ _ (UInt64.le_of_lt hbefore)]
    omega
  constructor
  case labelled =>
    obtain ⟨e, r, heq⟩ := List.exists_cons_of_ne_nil hnonempty
    have hmem : e.path ∈ config.pathnames := by
      rw [hpaths, mem_pathLabels_iff]
      exact ⟨e, heq ▸ List.mem_cons_self, rfl⟩
    exact List.ne_nil_of_mem hmem
  case distinct =>
    rw [hpaths]
    exact nodup_pathLabels _
  case written =>
    intro l hl
    rw [hpaths, mem_pathLabels_iff] at hl
    obtain ⟨e, he, rfl⟩ := hl
    exact (PathEntry.validate_eq_ok_iff.1 (hentries e he)).1
  case span => exact hbefore
  case programs =>
    rw [hpaths, hprograms]
    exact hvalid
  case schedule =>
    rw [hpaths, hschedule, hsame]
    exact hdue

namespace Contract

variable {c c₀ : Contract} {key : KeyPair} {time : UInt64} {m : Machine} {l : String}

/-! ## What a publication leaves to rely on -/

/-- What a contract relies on from its publication to its end. -/
structure Grounded (key : KeyPair) (c : Contract) : Prop where
  derived : c.Derived
  valid : c.terms.validate = .ok ()
  engine : c.engineLabel = JointEscrow.engineLabel
  authority : key.publicKey = c.serverPk

theorem Grounded.of_core (h : Grounded key c₀) (hcore : c.core = c₀.core) : Grounded key c := by
  have hc : Grounded key c₀.core := ⟨h.derived, h.valid, h.engine, h.authority⟩
  rw [← hcore] at hc
  exact ⟨hc.derived, hc.valid, hc.engine, hc.authority⟩

theorem grounded_of_create {options : PublishOptions} {policy : ServerPolicy} {r : PublishRequest}
    {now : UInt64} {ch : Change} (h : create options policy r key now = .ok ch) :
    Grounded key ch.contract := by
  obtain ⟨hderived, hterms, hauthority⟩ := derived_of_create h
  have hvalid : ch.contract.terms.validate = .ok () := by
    rw [hterms]
    exact valid_of_create h
  obtain ⟨outputs, cid, fees, subtotal, sigs, -, -, -, -, rfl⟩ := fresh_of_create h
  exact ⟨hderived, hvalid, rfl, hauthority.symm⟩

theorem Grounded.exists_machine (h : Grounded key c) {expiresAt : UInt64}
    (hspan : time.toNat + c.terms.duration.toNat = expiresAt.toNat) :
    ∃ config m, (c.started time (c.machineId time) expiresAt).machineConfig = .ok config ∧
      Machine.start config = .ok m := by
  obtain ⟨config, hconfig⟩ : ∃ config,
      (c.started time (c.machineId time) expiresAt).machineConfig = .ok config := ⟨_, rfl⟩
  obtain ⟨hactive, hexpires, -, hengine, hpaths, hprograms, hschedule⟩ :=
    machineConfig_eq_ok_iff.1 hconfig
  have hactive : time = config.activeAt := Option.some.inj hactive
  have hexpires : expiresAt = config.expiresAt := Option.some.inj hexpires
  rw [hactive, hexpires] at hspan
  obtain ⟨m, hinit⟩ := MachineConfig.exists_init_iff.2
    (MachineConfig.startable_of_validate h.valid hpaths hprograms hschedule hspan)
  refine ⟨config, m, hconfig, check_bind_eq_ok_iff.2 ⟨?_, hinit⟩⟩
  rw [ensure_eq_ok_iff, decide_eq_true_eq, hengine]
  exact h.engine

/-- A declared label has its template, and that can be paid out whatever the deposits are. -/
theorem Derived.exists_settlement (h : c.Derived) (hclosed : c.closed = true)
    (houtput : c.engineVout = some l) (hl : l ∈ pathLabels c.terms.paths)
    (deposits : List Deposit) :
    (∃ t, c.template? l = some t) ∧
      ∃ s txid, c.settlement deposits = .ok s ∧ s.txid = .ok txid := by
  obtain ⟨-, htemplates, -⟩ := h
  have hlabels := labels_of_spendTemplates htemplates
  rw [← hlabels, List.mem_map] at hl
  obtain ⟨t, ht, rfl⟩ := hl
  have hfound : c.template? t.label = some t := by
    apply template?_of_mem _ ht
    rw [hlabels]
    exact nodup_pathLabels _
  obtain ⟨outs, -, hbytes⟩ := bytes_of_spendTemplates htemplates ht
  obtain ⟨s, hs, htemplate⟩ : ∃ s, c.settlement deposits = .ok s ∧
      s.template = encodeTemplate outs :=
    ⟨_, settlement_eq_ok_iff.2 ⟨hclosed, _, t, _, houtput, hfound, hbytes, rfl⟩, rfl⟩
  have htxid := settlementId_encodeTemplate outs s.inputs
  rw [← htemplate] at htxid
  exact ⟨⟨t, hfound⟩, s, _, hs, htxid⟩

/-! ## The machine of a contract -/

theorem Operates.coherent (h : c.Operates m) :
    Machine.Coherent (pathLabels c.terms.paths) m := by
  obtain ⟨config, m₀, inputs, hconfig, hstart, hrun, -, -⟩ := h
  obtain ⟨-, -, -, -, hpaths, -⟩ := machineConfig_eq_ok_iff.1 hconfig
  rw [← hpaths]
  exact Machine.moves_keep (fun _ _ => Machine.Coherent.move) (Machine.moves_of_replay hrun)
    (Machine.coherent_of_init (check_bind_eq_ok_iff.1 hstart).2)

theorem Operates.declared (h : c.Operates m) (houtput : m.output = some l) :
    l ∈ pathLabels c.terms.paths := by
  have hcoherent := h.coherent
  rw [← hcoherent.labels, SortedMap.mem_keys_iff]
  exact ⟨.closed, (hcoherent.output l).1 houtput⟩

/-! ## The operations succeed -/

theorem Grounded.exists_activate (h : Grounded key c) (hstanding : Standing key c)
    (hstatus : c.status = .published) (hwindow : c.createdAt ≤ time ∧ time ≤ c.deadline)
    (hfunded : c.txTotal ≤ c.fundValue)
    (hfits : time.toNat + c.terms.duration.toNat < UInt64.size) :
    ∃ ch m, c.activate key time = .ok (ch, m) := by
  have hspan : time.toNat + c.terms.duration.toNat = (time + c.terms.duration).toNat := by
    rw [UInt64.toNat_add]
    exact (Nat.mod_eq_of_lt hfits).symm
  have hcanceled := hstanding.flags .canceled
  have hactivated := hstanding.flags .active
  rw [hstatus] at hcanceled hactivated
  obtain ⟨config, m, hconfig, hstart⟩ := h.exists_machine hspan
  obtain ⟨next, hrecord⟩ := (Advance.started hstatus hwindow hfunded hspan).exists_record
    hstanding.statuses h.authority
  have hcheck : c.checkActivation time = .ok () := checkActivation_eq_ok_iff.2
    ⟨hstatus, ⟨hcanceled, hactivated⟩, h.engine, hwindow, hfunded⟩
  exact ⟨_, m, activate_eq_ok_iff.2
    ⟨hcheck, _, config, next, hspan, hconfig, hstart, hrecord, rfl⟩⟩

theorem Grounded.exists_close (h : Grounded key c) (hstanding : Standing key c)
    (hstatus : c.status = .active) (hoperates : c.Operates m) (hclosed : m.closed = true) :
    ∃ ch, c.close m key = .ok ch := by
  obtain ⟨-, -, -, -, -, -, -, hvmid⟩ := hoperates.fixed
  obtain ⟨time, htime⟩ := Option.isSome_iff_exists.1 (hoperates.coherent.ended.1 hclosed)
  obtain ⟨next, hrecord⟩ := (Advance.ended hstatus hvmid hclosed htime).exists_record
    hstanding.statuses h.authority
  exact ⟨_, close_eq_ok_iff.2 ⟨hstatus, hvmid, hclosed, time, next, htime, hrecord, rfl⟩⟩

theorem Grounded.exists_spend (h : Grounded key c) (hstanding : Standing key c)
    (hstatus : c.status = .closed) (houtput : m.output = some l) (hsame : m.output = c.engineVout)
    (hl : l ∈ pathLabels c.terms.paths) (deposits : List Deposit) (time : UInt64) :
    ∃ ch, c.spend m deposits key time = .ok ch := by
  have hclosed := hstanding.flags .closed
  rw [hstatus] at hclosed
  have hsome : m.output.isSome = true := Option.isSome_iff_exists.2 ⟨l, houtput⟩
  obtain ⟨-, s, txid, hs, htxid⟩ :=
    h.derived.exists_settlement hclosed (hsame.symm.trans houtput) hl deposits
  have hadvance : Advance c (c.paid txid time) := .paid hstatus (hsame ▸ hsome)
  obtain ⟨next, hrecord⟩ := hadvance.exists_record hstanding.statuses h.authority
  exact ⟨_, spend_eq_ok_iff.2 ⟨hstatus, hsome, hsame, s, txid, next, hs, htxid, hrecord, rfl⟩⟩

theorem Grounded.exists_settle (h : Grounded key c) (hstanding : Standing key c)
    (hstatus : c.status = .spent) (time : UInt64) : ∃ ch, c.settle key time = .ok ch := by
  have hadvance : Advance c (c.finished time) := .finished hstatus
  obtain ⟨next, hrecord⟩ := hadvance.exists_record hstanding.statuses h.authority
  exact ⟨_, settle_eq_ok_iff.2 ⟨hstatus, next, hrecord, rfl⟩⟩

end Contract

/-! ## The failures that are left -/

/-- A failure within the record itself, rather than of what was asked of it: an error of the terms,
the notary, the machine or an audit, or a field that the record should have. -/
def ContractError.internal : ContractError → Bool
  | .terms _ | .verification _ _ | .notary _ | .machine _ => true
  | .status (.undescribed _ _) | .status .notActive => true
  | .status _ | .unauthorized _ => false

namespace Contract

variable {c : Contract} {key : KeyPair}

/-- An operation on the contract is refused, with whatever arguments. -/
inductive Fails (c : Contract) (e : ContractError) : Prop where
  | fund {deposits : List Deposit} (h : c.fund deposits = .error e)
  | cancel {key : KeyPair} {time : UInt64} (h : c.cancel key time = .error e)
  | activate {key : KeyPair} {time : UInt64} (h : c.activate key time = .error (.cause e))
  | close {m : Machine} {key : KeyPair} (h : c.close m key = .error e)
  | spend {m : Machine} {deposits : List Deposit} {key : KeyPair} {time : UInt64}
      (h : c.spend m deposits key time = .error e)
  | settle {key : KeyPair} {time : UInt64} (h : c.settle key time = .error e)

/-- An operation is refused for what was asked of it only. -/
abbrev Answerable {α : Type} (x : Except ContractError α) : Prop :=
  FailsBy (fun e => e.internal = false) x

theorem Advance.answerable {n : Contract} (h : Advance c n)
    (hstatuses : c.sigs.map (·.status) = c.status.trail) (key : KeyPair) :
    Answerable (n.recordStatus key) := by
  have hserver : n.core.serverPk = c.core.serverPk := by rw [h.core]
  by_cases hkey : key.publicKey = c.serverPk
  · obtain ⟨next, hrecord⟩ := h.exists_record hstatuses hkey
    exact failsBy_of_ok hrecord
  · have hother : key.publicKey ≠ n.serverPk := fun heq => hkey (heq.trans hserver)
    unfold recordStatus
    rw [if_pos hother]
    exact failsBy_error rfl

theorem answerable_fund (deposits : List Deposit) : Answerable (c.fund deposits) :=
  FailsBy.check rfl fun _ => failsBy_pure _

theorem Standing.answerable_cancel (h : Standing key c) (other : KeyPair) (time : UInt64) :
    Answerable (c.cancel other time) := by
  unfold cancel requireStatus
  refine FailsBy.check rfl fun hstatus => ?_
  refine FailsBy.check rfl fun _ => ?_
  refine FailsBy.check rfl fun hwindow => ?_
  rw [Bool.and_eq_true, decide_eq_true_eq, decide_eq_true_eq] at hwindow
  have hadvance : Advance c (c.withdrawn time) := .withdrawn (of_decide_eq_true hstatus) hwindow
  exact (hadvance.answerable h.statuses other).bind fun _ _ => failsBy_pure _

theorem answerable_checkActivation (time : UInt64) : Answerable (c.checkActivation time) := by
  unfold checkActivation requireStatus
  refine FailsBy.check rfl fun _ => ?_
  refine FailsBy.check rfl fun _ => ?_
  refine FailsBy.check rfl fun _ => ?_
  refine FailsBy.check rfl fun _ => ?_
  exact failsBy_ensure rfl

/-- An activation that does not halt over its expiry is refused by its own conditions. -/
theorem Grounded.answerable_activate (h : Grounded key c) (hstanding : Standing key c)
    (other : KeyPair) (time : UInt64) :
    FailsBy (fun halt => ∀ e, halt = .cause e → e.internal = false) (c.activate other time) := by
  have hcause : ∀ e : ContractError, e.internal = false →
      ∀ e', Halt.cause e = Halt.cause e' → e'.internal = false := by
    rintro e he _ ⟨⟩
    exact he
  unfold activate
  refine ((answerable_checkActivation time).mapError hcause).bind fun _ hcheck => ?_
  obtain ⟨hstatus, -, -, hwindow, hfunded⟩ :=
    checkActivation_eq_ok_iff.1 (mapError_eq_ok_iff.1 hcheck)
  refine FailsBy.bind ?_ fun expiresAt hexpiry => ?_
  · unfold addOrHalt
    split
    · exact failsBy_of_ok rfl
    · apply failsBy_error
      rintro _ ⟨⟩
  have hspan := addOrHalt_eq_ok_iff.1 hexpiry
  -- the machine starts, so nothing is refused from here on but the key
  obtain ⟨config, m, hconfig, hstart⟩ := h.exists_machine hspan
  refine (failsBy_of_ok (mapError_eq_ok_iff.2 hconfig)).bind fun config' hconfig' => ?_
  cases hconfig.symm.trans (mapError_eq_ok_iff.1 hconfig')
  refine (failsBy_of_ok (mapError_eq_ok_iff.2 hstart)).bind fun _ _ => ?_
  have hadvance := Advance.started hstatus hwindow hfunded hspan
  exact ((hadvance.answerable hstanding.statuses other).mapError hcause).bind
    fun _ _ => failsBy_pure _

theorem Standing.answerable_close (h : Standing key c) (m : Machine) (other : KeyPair) :
    Answerable (c.close m other) := by
  unfold close requireStatus
  refine FailsBy.check rfl fun hstatus => ?_
  refine FailsBy.check rfl fun hvmid => ?_
  split
  · exact failsBy_error rfl
  · next time htime =>
    rw [Option.ite_none_right_eq_some] at htime
    have hadvance : Advance c (c.ended m time) :=
      .ended (of_decide_eq_true hstatus) (of_decide_eq_true hvmid) htime.1 htime.2
    exact (hadvance.answerable h.statuses other).bind fun _ _ => failsBy_pure _

theorem Grounded.answerable_spend (h : Grounded key c) (hstanding : Standing key c)
    (hdeclared : c.status = .closed → ∀ l, c.engineVout = some l → l ∈ pathLabels c.terms.paths)
    (m : Machine) (deposits : List Deposit) (other : KeyPair) (time : UInt64) :
    Answerable (c.spend m deposits other time) := by
  unfold spend requireStatus
  refine FailsBy.check rfl fun hstatus => ?_
  refine FailsBy.check rfl fun houtput => ?_
  have hstatus : c.status = .closed := of_decide_eq_true hstatus
  rw [Bool.and_eq_true, decide_eq_true_eq] at houtput
  have hsome : c.engineVout.isSome = true := houtput.2 ▸ houtput.1
  obtain ⟨l, hl⟩ := Option.isSome_iff_exists.1 hsome
  have hclosed := hstanding.flags .closed
  rw [hstatus] at hclosed
  -- the outcome is declared, so its settlement can be built whatever the deposits are
  obtain ⟨-, s, txid, hs, htxid⟩ :=
    h.derived.exists_settlement hclosed hl (hdeclared hstatus l hl) deposits
  refine (failsBy_of_ok hs).bind fun s' hs' => ?_
  cases hs.symm.trans hs'
  refine (failsBy_of_ok (mapError_eq_ok_iff.2 htxid)).bind fun txid' _ => ?_
  have hadvance : Advance c (c.paid txid' time) := .paid hstatus hsome
  exact (hadvance.answerable hstanding.statuses other).bind fun _ _ => failsBy_pure _

theorem Standing.answerable_settle (h : Standing key c) (other : KeyPair) (time : UInt64) :
    Answerable (c.settle other time) := by
  unfold settle requireStatus
  refine FailsBy.check rfl fun hstatus => ?_
  have hadvance : Advance c (c.finished time) := .finished (of_decide_eq_true hstatus)
  exact (hadvance.answerable h.statuses other).bind fun _ _ => failsBy_pure _

end Contract

/-! ## Sessions -/

namespace Session

variable {key : KeyPair} {s : Session}

/-- What the authority can always do next, and what can be refused. The machine that the session
keeps is one of those that the contract's activation leads to. -/
structure Live (key : KeyPair) (s : Session) : Prop where
  activates : s.contract.status = .published → ∀ time, s.contract.createdAt ≤ time →
    time ≤ s.contract.deadline → s.contract.txTotal ≤ s.contract.fundValue →
      time.toNat + s.contract.terms.duration.toNat < UInt64.size →
        ∃ ch m, s.contract.activate key time = .ok (ch, m)
  operates : s.contract.status = .active → ∃ m, s.machine = some m ∧ s.contract.Operates m
  closes : s.contract.status = .active → ∀ m, s.contract.Operates m → m.closed = true →
    ∃ ch, s.contract.close m key = .ok ch
  spends : s.contract.status = .closed → ∃ m, s.machine = some m ∧ s.contract.ConcludedBy m ∧
    ∀ l, m.output = some l → (∃ t, s.contract.template? l = some t) ∧
      ∀ deposits time, ∃ ch, s.contract.spend m deposits key time = .ok ch
  settles : s.contract.status = .spent → ∀ time, ∃ ch, s.contract.settle key time = .ok ch
  failures : ∀ e, s.contract.Fails e → e.internal = false

/-- From its publication on a contract is never stuck: each operation of its authority succeeds when
it is due, and none fails for a reason within the record. -/
theorem live_of_steps {options : PublishOptions} {policy : ServerPolicy} {r : PublishRequest}
    {now : UInt64} {published : Change}
    (hcreate : Contract.create options policy r key now = .ok published)
    (hsteps : Steps key (.ofFresh published.contract) s) : Live key s := by
  have h := sound_of_steps (sound_of_create hcreate) hsteps
  have hgrounded := (Contract.grounded_of_create hcreate).of_core h.core
  have hflag : ∀ status ∈ s.contract.status.trail, s.contract.flag status = true := by
    intro status hmem
    rw [h.standing.flags, decide_eq_true_eq]
    exact hmem
  -- the machine that the contract was closed with is the one that its activation started
  have hclosed : s.contract.status = .closed → ∃ m, s.machine = some m ∧ s.contract.Operates m ∧
      s.contract.ConcludedBy m := by
    intro hstatus
    rw [hstatus] at hflag
    obtain ⟨m, hm, hoperates⟩ := h.operates (hflag .active (by decide))
    obtain ⟨m', hm', hconcluded⟩ := h.concluded (hflag .closed (by decide))
    cases hm.symm.trans hm'
    exact ⟨m, hm, hoperates, hconcluded⟩
  have hdeclared : s.contract.status = .closed → ∀ l, s.contract.engineVout = some l →
      l ∈ pathLabels s.contract.terms.paths := by
    intro hstatus l hl
    obtain ⟨m, -, hoperates, -, -, -, houtput⟩ := hclosed hstatus
    exact hoperates.declared (houtput.trans hl)
  constructor
  case activates =>
    intro hstatus time hfrom hto hfunded hfits
    exact hgrounded.exists_activate h.standing hstatus ⟨hfrom, hto⟩ hfunded hfits
  case operates =>
    intro hstatus
    rw [hstatus] at hflag
    exact h.operates (hflag .active (by decide))
  case closes =>
    intro hstatus m hoperates hends
    exact hgrounded.exists_close h.standing hstatus hoperates hends
  case spends =>
    intro hstatus
    obtain ⟨m, hm, hoperates, hconcluded⟩ := hclosed hstatus
    refine ⟨m, hm, hconcluded, ?_⟩
    intro l hl
    have hsame := hconcluded.2.2.2
    rw [hstatus] at hflag
    have htemplate := hgrounded.derived.exists_settlement (hflag .closed (by decide))
      (hsame.symm.trans hl) (hoperates.declared hl) []
    refine ⟨htemplate.1, ?_⟩
    exact hgrounded.exists_spend h.standing hstatus hl hsame (hoperates.declared hl)
  case settles =>
    intro hstatus
    exact hgrounded.exists_settle h.standing hstatus
  case failures =>
    intro e hfails
    cases hfails with
    | fund hfails => exact Contract.answerable_fund _ e hfails
    | cancel hfails => exact h.standing.answerable_cancel _ _ e hfails
    | activate hfails => exact hgrounded.answerable_activate h.standing _ _ _ hfails e rfl
    | close hfails => exact h.standing.answerable_close _ _ e hfails
    | spend hfails => exact hgrounded.answerable_spend h.standing hdeclared _ _ _ _ e hfails
    | settle hfails => exact h.standing.answerable_settle _ _ e hfails

/-- The funded gift can be activated at another time than it was, and each later stage of it has the
operation that is due: it can be closed with its machine, spent with whatever deposits, and settled
at any time. -/
theorem delayedGift_live : ∃ run : GiftRun,
    (Live escrowKey ⟨run.funded.contract, none, [giftDeposit]⟩ ∧
      ∃ ch m, run.funded.contract.activate escrowKey 30 = .ok (ch, m)) ∧
    (Live escrowKey ⟨run.active.contract, some run.machine, [giftDeposit]⟩ ∧
      run.active.contract.Operates run.machine ∧
        ∃ ch, run.active.contract.close run.machine escrowKey = .ok ch) ∧
    (Live escrowKey ⟨run.closed.contract, some run.machine, [giftDeposit]⟩ ∧
      run.closed.contract.ConcludedBy run.machine ∧ ∀ deposits time, ∃ ch,
        run.closed.contract.spend run.machine deposits escrowKey time = .ok ch) ∧
    Live escrowKey ⟨run.spent.contract, some run.machine, [giftDeposit]⟩ ∧
      ∀ time, ∃ ch, run.spent.contract.settle escrowKey time = .ok ch := by
  obtain ⟨run⟩ := nonempty_giftRun
  have hfunded := live_of_steps run.creates run.steps_funded
  have hactive := live_of_steps run.creates run.steps_driven
  have hclosed := live_of_steps run.creates run.steps
  have hspent := live_of_steps run.creates run.steps_spent
  refine ⟨run, ⟨hfunded, ?activated⟩, ⟨hactive, ?closed⟩, ⟨hclosed, ?spent⟩, hspent, ?settled⟩
  case activated =>
    obtain ⟨hcheck, -⟩ := Contract.activate_eq_ok_iff.1 run.activates
    obtain ⟨hstatus, -, -, -, hfunds⟩ := Contract.checkActivation_eq_ok_iff.1 hcheck
    obtain ⟨hfrom, hdeadline, hterms⟩ := run.funded_window
    refine hfunded.activates hstatus 30 ?_ ?_ hfunds ?_
    · rw [hfrom]
      decide
    · rw [hdeadline]
      decide
    · rw [hterms]
      decide
  case closed =>
    obtain ⟨hstatus, -, hends, -⟩ := Contract.close_eq_ok_iff.1 run.closes
    obtain ⟨m, hm, hoperates⟩ := hactive.operates hstatus
    cases hm
    exact ⟨hoperates, hactive.closes hstatus _ hoperates hends⟩
  case spent =>
    obtain ⟨hstatus, hsome, -⟩ := Contract.spend_eq_ok_iff.1 run.spends
    obtain ⟨l, hl⟩ := Option.isSome_iff_exists.1 hsome
    obtain ⟨m, hm, hconcluded, hspends⟩ := hclosed.spends hstatus
    cases hm
    exact ⟨hconcluded, (hspends l hl).2⟩
  case settled =>
    obtain ⟨-, -, -, s, txid, next, -, -, hrecord, hpaid⟩ :=
      Contract.spend_eq_ok_iff.1 run.spends
    obtain ⟨-, note, sigs, -, -, hnext⟩ := Contract.recordStatus_eq_ok_iff.1 hrecord
    have hstatus : run.spent.contract.status = .spent := by
      rw [hpaid, hnext]
      rfl
    exact hspent.settles hstatus

end Session

end JointEscrow
