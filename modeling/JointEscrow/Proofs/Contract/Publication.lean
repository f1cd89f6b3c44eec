import JointEscrow.Proofs.Contract.AuditSoundness
import JointEscrow.Proofs.Terms.WellFormed

/-!
# When a contract is published

A publication goes through checks of the terms, the server's bounds, the engine, the endorsements,
the addresses, the feerate and the subtotal, and then derives identifiers and signs. Only the
conditions in `Publishable` can refuse it: the engine has no say once the terms are valid, and
encoding, identifiers, figures and the first proof never fail. What comes out passes every stage of
the audit that a fresh record can pass.
-/

namespace JointEscrow

/-! ## The bounds of a server -/

namespace ServerPolicy

variable {policy : ServerPolicy} {p : Proposal}

def AllowsRate (policy : ServerPolicy) (rate : UInt64) : Prop :=
  policy.proposal.minFeerate ≤ rate ∧ rate ≤ policy.proposal.maxFeerate

/-- The terms lie within the server's bounds, those that are left open apart. -/
structure Allows (policy : ServerPolicy) (p : Proposal) : Prop where
  duration : policy.proposal.minDuration ≤ p.duration ∧ p.duration ≤ policy.proposal.maxDuration
  value : policy.proposal.minValue ≤ p.value ∧ p.value ≤ policy.proposal.maxValue
  feerate : ∀ rate, p.feerate = some rate → policy.AllowsRate rate
  deadline : ∀ window, p.deadline = some window → 1 ≤ window ∧ window ≤ policy.proposal.maxDeadline
  network : p.network ∈ policy.proposal.networks

theorem checkWithin_eq_ok_iff {field : String} {value low high : UInt64} :
    checkWithin field value low high = .ok () ↔ low ≤ value ∧ value ≤ high := by
  unfold checkWithin
  rw [ensure_eq_ok_iff, Bool.and_eq_true, decide_eq_true_eq, decide_eq_true_eq]

theorem checkFeerate_eq_ok_iff {rate : UInt64} :
    policy.checkFeerate rate = .ok () ↔ policy.AllowsRate rate := checkWithin_eq_ok_iff

theorem checkProposal_eq_ok_iff : policy.checkProposal p = .ok () ↔ policy.Allows p := by
  unfold checkProposal
  simp only [check_bind_eq_ok_iff, option_forM_eq_ok_iff, checkWithin_eq_ok_iff, ensure_eq_ok_iff,
    decide_eq_true_eq]
  constructor
  · rintro ⟨hduration, hvalue, hfeerate, hdeadline, hnetwork⟩
    exact ⟨hduration, hvalue, hfeerate, hdeadline, hnetwork⟩
  · intro h
    exact ⟨h.duration, h.value, h.feerate, h.deadline, h.network⟩

end ServerPolicy

/-! ## Requests -/

section Requests

variable {id : Digest} {es : List Endorsement} {seen : List PublicKey} {k : PublicKey}
  {p : Proposal} {policy : ServerPolicy} {r : PublishRequest}

theorem checkEndorsements_eq_ok_iff :
    checkEndorsements id seen es = .ok () ↔
      (∀ e ∈ es, e.verifies id = true) ∧ (es.map (·.pubkey)).Nodup ∧ ∀ e ∈ es, e.pubkey ∉ seen := by
  induction es generalizing seen with
  | nil => simp [checkEndorsements]
  | cons e es ih =>
    rw [checkEndorsements, List.map_cons, List.forall_mem_cons, List.forall_mem_cons]
    by_cases hverifies : e.verifies id = true
    · by_cases hseen : e.pubkey ∈ seen
      · simp [hverifies, hseen]
      · simp only [hverifies, hseen, Bool.not_true, Bool.false_eq_true, if_false, ih,
          nodup_fresh_cons_iff, not_false_eq_true, true_and]
    · simp [hverifies]

theorem checkMembers_eq_ok_iff {members : SortedSet PublicKey} {signed : List PublicKey} :
    checkMembers members signed = .ok () ↔ ∀ k ∈ members.elements, k ∈ signed := by
  unfold checkMembers
  split
  · next missing hmissing =>
    have hunsigned : missing ∉ signed := by simpa using List.find?_some hmissing
    have hmember : missing ∈ members.elements := List.mem_of_find?_eq_some hmissing
    simp only [reduceCtorEq, false_iff]
    exact fun hall => hunsigned (hall missing hmember)
  · next hnone =>
    rw [List.find?_eq_none] at hnone
    simpa using hnone

theorem Proposal.mem_members_iff : k ∈ p.members.elements ↔ ∃ q ∈ p.programs, k ∈ q.members := by
  unfold members
  rw [SortedSet.mem_elements, SortedSet.mem_ofList, List.mem_flatMap]

/-- Each member of the programs is among the endorsers. -/
def PublishRequest.EndorsedByMembers (r : PublishRequest) : Prop :=
  ∀ q ∈ r.proposal.programs, ∀ k ∈ q.members, ∃ e ∈ r.endorsements, e.pubkey = k

/-- The engine's own check of the programs adds nothing to that of the terms. -/
theorem PublishRequest.verify_eq_ok_iff :
    r.verify policy = .ok () ↔
      r.proposal.validate = .ok () ∧ policy.Allows r.proposal ∧
        (∀ e ∈ r.endorsements, e.verifies r.proposal.id = true) ∧
          (r.endorsements.map (·.pubkey)).Nodup ∧
            (policy.contract.requireMemberEndorsements = true → r.EndorsedByMembers) := by
  have hmembers : checkMembers r.proposal.members (r.endorsements.map (·.pubkey)) = .ok () ↔
      r.EndorsedByMembers := by
    simp only [checkMembers_eq_ok_iff, Proposal.mem_members_iff, List.mem_map]
    constructor
    · intro h q hq k hk
      exact h k ⟨q, hq, hk⟩
    · rintro h k ⟨q, hq, hk⟩
      exact h q hq k hk
  unfold verify
  simp only [check_bind_eq_ok_iff, mapError_eq_ok_iff, ServerPolicy.checkProposal_eq_ok_iff,
    forM_eq_ok_iff, ProgramTerms.checkSupported_eq_validate, checkEndorsements_eq_ok_iff]
  constructor
  · rintro ⟨hvalid, hallowed, -, ⟨hendorsed, hdistinct, -⟩, hrequired⟩
    refine ⟨hvalid, hallowed, hendorsed, hdistinct, fun hasked => ?_⟩
    rw [if_pos hasked] at hrequired
    exact hmembers.1 hrequired
  · rintro ⟨hvalid, hallowed, hendorsed, hdistinct, hrequired⟩
    obtain ⟨-, -, -, -, -, -, -, hprograms, -⟩ := Proposal.validate_eq_ok_iff.1 hvalid
    refine ⟨hvalid, hallowed, hprograms, ⟨hendorsed, hdistinct, fun _ _ => List.not_mem_nil⟩, ?_⟩
    split
    · next hasked => exact hmembers.2 (hrequired hasked)
    · rfl

end Requests

/-! ## Addresses and templates -/

/-- Some letters and digits of ASCII, and nothing else. -/
structure PlainAddress (address : String) : Prop where
  nonempty : address ≠ ""
  characters : ∀ c ∈ address.toList,
    ('0' ≤ c ∧ c ≤ '9') ∨ ('A' ≤ c ∧ c ≤ 'Z') ∨ ('a' ≤ c ∧ c ≤ 'z')

theorem isAddressChar_iff {c : Char} :
    isAddressChar c = true ↔
      ('0' ≤ c ∧ c ≤ '9') ∨ ('A' ≤ c ∧ c ≤ 'Z') ∨ ('a' ≤ c ∧ c ≤ 'z') := by
  show (decide ('A' ≤ c ∧ c ≤ 'Z') || (decide ('a' ≤ c) && decide (c ≤ 'z')) ||
    (decide ('0' ≤ c) && decide (c ≤ '9'))) = true ↔ _
  simp only [Bool.or_eq_true, Bool.and_eq_true, decide_eq_true_eq]
  exact or_comm

theorem isAddress_iff {address : String} : isAddress address = true ↔ PlainAddress address := by
  unfold isAddress
  rw [Bool.and_eq_true, List.all_eq_true, Bool.not_eq_true', String.isEmpty_eq_false_iff]
  simp only [isAddressChar_iff]
  exact ⟨fun h => ⟨h.1, h.2⟩, fun h => ⟨h.nonempty, h.characters⟩⟩

section Templates

variable {p : Proposal} {paths : List PathEntry} {payments fees : List Payment}
  {outputs : List SpendTemplate}

theorem exists_addressScript_iff {address : String} :
    (∃ script, addressScript address = .ok script) ↔ PlainAddress address := by
  unfold addressScript
  rw [← isAddress_iff]
  split
  · next h => simp [h]
  · next h => simp [h]

theorem exists_output_iff {q : Payment} :
    (∃ o, q.output = .ok o) ↔ PlainAddress q.address := by
  unfold Payment.output
  simp only [bind_eq_ok_iff, pure_eq_ok_iff]
  rw [← exists_addressScript_iff]
  constructor
  · rintro ⟨_, script, hscript, -⟩
    exact ⟨script, hscript⟩
  · rintro ⟨script, hscript⟩
    exact ⟨_, script, hscript, rfl⟩

/-- The outputs of a path are refused for an address of the path or of a payment only. -/
theorem exists_pathOutputs_iff (label : String) :
    (∃ outs, pathOutputs label paths payments = .ok outs) ↔
      (∀ e ∈ paths, e.path = label → PlainAddress e.address) ∧
        ∀ q ∈ payments, PlainAddress q.address := by
  unfold pathOutputs sortPayments pathPayments entriesOf
  rw [exists_mapM_iff]
  simp only [exists_output_iff, List.forall_mem_append, List.mem_mergeSort, List.forall_mem_map,
    List.mem_filter, decide_eq_true_eq, and_imp]

/-- With a path declared every payment is on some template. -/
theorem exists_spendTemplates_iff (hpaths : p.paths ≠ []) :
    (∃ outputs, p.spendTemplates fees = .ok outputs) ↔
      (∀ e ∈ p.paths, PlainAddress e.address) ∧
        ∀ q ∈ p.payments ++ fees, PlainAddress q.address := by
  unfold Proposal.spendTemplates
  rw [exists_mapM_iff]
  simp only [spendTemplate_eq_ok_iff]
  constructor
  · intro h
    have hlabel : ∀ e ∈ p.paths, ∃ outs,
        pathOutputs e.path p.paths (p.payments ++ fees) = .ok outs := by
      intro e he
      obtain ⟨_, outs, houts, -⟩ := h e.path (mem_pathLabels_iff.2 ⟨e, he, rfl⟩)
      exact ⟨outs, houts⟩
    constructor
    · intro e he
      exact ((exists_pathOutputs_iff e.path).1 (hlabel e he)).1 e he rfl
    · obtain ⟨e, he⟩ := List.exists_mem_of_ne_nil _ hpaths
      exact ((exists_pathOutputs_iff e.path).1 (hlabel e he)).2
  · rintro ⟨hpayees, hpayments⟩ label -
    obtain ⟨outs, houts⟩ := (exists_pathOutputs_iff label).2
      ⟨fun e he _ => hpayees e he, hpayments⟩
    exact ⟨_, outs, houts, rfl⟩

/-- The digits of a proposal's own templates are always read back, so they have an identifier. -/
theorem exists_contractId (h : p.spendTemplates fees = .ok outputs) (id : Digest) (time : UInt64) :
    ∃ cid, contractId outputs id time = .ok cid := by
  obtain ⟨templates, htemplates⟩ :
      ∃ templates, outputs.mapM SpendTemplate.bytes = .ok templates := by
    apply exists_mapM_iff.2
    intro t ht
    obtain ⟨outs, -, hbytes⟩ := bytes_of_spendTemplates h ht
    exact ⟨_, hbytes⟩
  exact ⟨_, bind_eq_ok_iff.2 ⟨templates, htemplates, rfl⟩⟩

end Templates

/-! ## Publication -/

namespace Contract

variable {options : PublishOptions} {policy : ServerPolicy} {r : PublishRequest} {key : KeyPair}
  {now : UInt64}

theorem chooseFeerate_eq (options : PublishOptions) (policy : ServerPolicy) (p : Proposal) :
    chooseFeerate options policy p =
      options.feerate.getD (p.feerate.getD policy.contract.defaultFeerate) := by
  unfold chooseFeerate
  cases options.feerate <;> rfl

/-- The subtotal is refused exactly when it does not fit, whichever of its two sums it is. -/
theorem exists_subtotal_iff {value : UInt64} {fees : List Payment} :
    (∃ total subtotal, paymentTotal fees = .ok total ∧
      totalOf [value, total] "contract subtotal" = .ok subtotal) ↔
        value.toNat + exactTotal (fees.map (·.value)) < UInt64.size := by
  constructor
  · rintro ⟨total, subtotal, htotal, hsubtotal⟩
    have hexact := totalOf_eq_ok_iff.1 hsubtotal
    have hsize := subtotal.toNat_lt_size
    rw [exactTotal_cons, exactTotal_cons, exactTotal_nil] at hexact
    rw [totalOf_eq_ok_iff.1 htotal]
    omega
  · intro hfits
    obtain ⟨total, htotal⟩ : ∃ total, paymentTotal fees = .ok total := by
      apply (exists_totalOf_iff _ _).2
      omega
    rw [totalOf_eq_ok_iff.1 htotal] at hfits
    obtain ⟨subtotal, hsubtotal⟩ :
        ∃ subtotal, totalOf [value, total] "contract subtotal" = .ok subtotal := by
      rw [exists_totalOf_iff, exactTotal_cons, exactTotal_cons, exactTotal_nil]
      omega
    exact ⟨total, subtotal, htotal, hsubtotal⟩

/-- The first proof is always given: the record names the key as its authority, and its log is
empty. -/
theorem exists_record_fresh (options : PublishOptions) (policy : ServerPolicy) (p : Proposal)
    (key : KeyPair) (now : UInt64) (outputs : List SpendTemplate) (cid : Digest)
    (subtotal : UInt64) :
    ∃ next, (fresh options policy p key.publicKey now outputs cid subtotal).recordStatus key =
      .ok next :=
  ⟨_, recordStatus_eq_ok_iff.2 ⟨rfl, _, _, rfl, rfl, rfl⟩⟩

end Contract

/-- What a server asks of a request that it publishes. -/
structure PublishRequest.Publishable (options : PublishOptions) (policy : ServerPolicy)
    (r : PublishRequest) : Prop where
  valid : r.proposal.validate = .ok ()
  allowed : policy.Allows r.proposal
  endorsed : ∀ e ∈ r.endorsements, e.verifies r.proposal.id = true
  distinct : (r.endorsements.map (·.pubkey)).Nodup
  members : policy.contract.requireMemberEndorsements = true → r.EndorsedByMembers
  payees : ∀ e ∈ r.proposal.paths, PlainAddress e.address
  payments : ∀ q ∈ r.proposal.payments ++ options.fees, PlainAddress q.address
  feerate : policy.AllowsRate
    (options.feerate.getD (r.proposal.feerate.getD policy.contract.defaultFeerate))
  subtotal : r.proposal.value.toNat + exactTotal (options.fees.map (·.value)) < UInt64.size

namespace Contract

variable {options : PublishOptions} {policy : ServerPolicy} {r : PublishRequest} {key : KeyPair}
  {now : UInt64}

theorem exists_create_iff :
    (∃ ch, create options policy r key now = .ok ch) ↔ r.Publishable options policy := by
  constructor
  · rintro ⟨ch, hcreate⟩
    obtain ⟨hverify, outputs, cid, fees, subtotal, next, houtputs, -, hrate, hfees, hsubtotal, -⟩ :=
      create_eq_ok_iff.1 hcreate
    obtain ⟨hvalid, hallowed, hendorsed, hdistinct, hmembers⟩ :=
      PublishRequest.verify_eq_ok_iff.1 hverify
    have hpaths := (Proposal.validate_iff_wellFormed.1 hvalid).paths
    obtain ⟨hpayees, hpayments⟩ := (exists_spendTemplates_iff hpaths).1 ⟨outputs, houtputs⟩
    rw [ServerPolicy.checkFeerate_eq_ok_iff, chooseFeerate_eq] at hrate
    exact ⟨hvalid, hallowed, hendorsed, hdistinct, hmembers, hpayees, hpayments, hrate,
      exists_subtotal_iff.1 ⟨fees, subtotal, hfees, hsubtotal⟩⟩
  · intro h
    have hverify := PublishRequest.verify_eq_ok_iff.2
      ⟨h.valid, h.allowed, h.endorsed, h.distinct, h.members⟩
    have hpaths := (Proposal.validate_iff_wellFormed.1 h.valid).paths
    obtain ⟨outputs, houtputs⟩ := (exists_spendTemplates_iff hpaths).2 ⟨h.payees, h.payments⟩
    obtain ⟨cid, hcid⟩ := exists_contractId houtputs r.proposal.id now
    have hrate : policy.checkFeerate (chooseFeerate options policy r.proposal) = .ok () := by
      rw [ServerPolicy.checkFeerate_eq_ok_iff, chooseFeerate_eq]
      exact h.feerate
    obtain ⟨fees, subtotal, hfees, hsubtotal⟩ := exists_subtotal_iff.2 h.subtotal
    obtain ⟨next, hrecord⟩ :=
      exists_record_fresh options policy r.proposal key now outputs cid subtotal
    exact ⟨_, create_eq_ok_iff.2 ⟨hverify, outputs, cid, fees, subtotal, next, houtputs, hcid,
      hrate, hfees, hsubtotal, hrecord, rfl⟩⟩

/-- A fresh record is flagged as published and as nothing else. -/
theorem reachedStatuses_of_create {ch : Change} (h : create options policy r key now = .ok ch) :
    ch.contract.reachedStatuses = [.published] := by
  obtain ⟨outputs, cid, fees, subtotal, sigs, -, -, -, -, rfl⟩ := fresh_of_create h
  rfl

/-- A request is published exactly when it is publishable, and the record passes the audits of its
data, its proposal and its figures as it is, and that of its proofs exactly if the key's signature of
its one note verifies. -/
theorem published_exactly_publishable (options : PublishOptions) (policy : ServerPolicy)
    (r : PublishRequest) (key : KeyPair) (now : UInt64) :
    ((∃ ch, create options policy r key now = .ok ch) ↔ r.Publishable options policy) ∧
      ∀ ch, create options policy r key now = .ok ch →
        ch.contract.verifyData = .ok () ∧ ch.contract.verifyPublishing r.proposal = .ok () ∧
          ch.contract.verifyFunding [] = .ok () ∧
            (ch.contract.verifySignatures key.publicKey = .ok () ↔
              ∀ note, ch.contract.statusNote .published = .ok note →
                key.publicKey.verifies note.id (key.sign note.id) = true) := by
  refine ⟨exists_create_iff, ?_⟩
  intro ch hcreate
  obtain ⟨hderived, hterms, hauthority⟩ := derived_of_create hcreate
  have htabulated := (Session.sound_of_create hcreate).tabulated
  refine ⟨hderived.verifyData, ?_, htabulated.verifyFunding, ?_⟩
  · rw [← hterms]
    exact hderived.verifyPublishing
  · rw [(standing_of_create hcreate).verifySignatures_iff hauthority,
      reachedStatuses_of_create hcreate]
    exact List.forall_mem_singleton

end Contract

/-! ### A guarded gift -/

/-- A party to the gift below. -/
def giver : PublicKey :=
  ⟨takeBytes 32
    (bigEndian 32 0xea4a6c63e29c520abef5507b132ec5f9954776aebebe7b92421eea691446d22c)⟩

/-- The delayed gift with a program by which its giver can pay it out at once. -/
def guardedGift : Proposal :=
  { delayedGift with programs := [⟨.endorse, .tokens ["close"], .any, 1, [giver]⟩] }

/-- The gift, endorsed by its giver. -/
def guardedRequest : PublishRequest where
  proposal := guardedGift
  endorsements := [⟨giver, signatureOf
    0x615b7be24fb6856848c52b480080ad09284cb0750337e39720cb737ec719ba4e
    0xd73506766663914b73b1d0e26c67096c8f8775856eeeb97ce44b3606fc36f407⟩]

/-- The server takes a fee and sets the rate. -/
def hostOptions : PublishOptions where
  fees := [⟨10, "host"⟩]
  feerate := some 3

theorem id_guardedGift : guardedGift.id =
    .ofNat 0xcffb18b1f73aa9b0fc4af7158a5229f031ed564b698d482281a7ced649eb16f5 := by
  show Digest.ofBytes (utf8 (Json.compact _)) = _
  rw [Json.utf8_compact]
  decide +kernel

theorem publishable_guardedRequest : guardedRequest.Publishable hostOptions {} where
  valid := by decide +kernel
  allowed := ⟨by decide, by decide, nofun, nofun, by decide⟩
  endorsed := by
    intro e he
    obtain rfl := List.mem_singleton.1 he
    show Endorsement.verifies _ guardedGift.id = true
    rw [id_guardedGift]
    decide +kernel
  distinct := List.nodup_singleton _
  members := by
    intro _ q hq k hk
    obtain rfl := List.mem_singleton.1 hq
    obtain rfl := List.mem_singleton.1 hk
    exact ⟨_, List.mem_singleton_self _, rfl⟩
  payees := by
    intro e he
    obtain rfl := List.mem_singleton.1 he
    exact isAddress_iff.1 (by decide)
  payments := by
    intro q hq
    obtain rfl := List.mem_singleton.1 hq
    exact isAddress_iff.1 (by decide)
  feerate := ⟨by decide, by decide⟩
  subtotal := by decide

/-- The endorsed gift is published, with a record that passes the audits of what is in it. -/
theorem guardedGift_published :
    ∃ ch, Contract.create hostOptions {} guardedRequest escrowKey 0 = .ok ch ∧
      ch.contract.verifyData = .ok () ∧ ch.contract.verifyPublishing guardedGift = .ok () ∧
        ch.contract.verifyFunding [] = .ok () := by
  obtain ⟨hexact, haudits⟩ :=
    Contract.published_exactly_publishable hostOptions {} guardedRequest escrowKey 0
  obtain ⟨ch, hcreate⟩ := hexact.2 publishable_guardedRequest
  obtain ⟨hdata, hpublishing, hfunding, -⟩ := haudits ch hcreate
  exact ⟨ch, hcreate, hdata, hpublishing, hfunding⟩

end JointEscrow
