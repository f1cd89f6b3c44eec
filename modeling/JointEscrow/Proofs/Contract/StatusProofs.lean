import JointEscrow.Proofs.Contract.AuditFigures
import JointEscrow.Proofs.Records.Contract

/-!
# What a proof of a status binds

A proof is a signature over the digest of a note that is not kept, so what it says about a record is
what the note does: the note that is rebuilt from the record must have the signed digest. Unless two
of these notes collide, the digest tells the note, the note tells the fields that describe the
status, and the first of these fields tells the status. So a log of proofs fits only records that
agree on all of this, and no proof of one status passes as a proof of another (`proofs_bind`).
-/

namespace JointEscrow

/-! ## Notes -/

theorem digest_hex_injective {d e : Digest} (h : d.hex = e.hex) : d = e := by
  have hread := digest_ofHex_hex d
  rw [h, digest_ofHex_hex] at hread
  exact (Except.ok.inj hread).symm

/-- The note about a status tells all that it was made of. -/
theorem Note.ofStatus_injective {k k' : PublicKey} {cid cid' : Digest} {content content' : String}
    {t t' : UInt64} (h : Note.ofStatus k cid content t = Note.ofStatus k' cid' content' t') :
    k = k' ∧ cid = cid' ∧ content = content' ∧ t = t' := by
  unfold Note.ofStatus at h
  simp only [Note.mk.injEq, List.cons.injEq, Prod.mk.injEq, and_true, true_and] at h
  obtain ⟨hcontent, htime, hkey, htag⟩ := h
  exact ⟨hkey, digest_hex_injective htag, hcontent, htime⟩

namespace Status

/-- The first field in the note about a status. -/
def noteKey : Status → String
  | published => "cid"
  | canceled => "canceled_at"
  | active => "active_at"
  | closed => "closed_at"
  | spent => "spent_at"
  | settled => "settled_at"

theorem noteKey_injective {s t : Status} (h : s.noteKey = t.noteKey) : s = t := by
  cases s <;> cases t <;> first | rfl | exact absurd h (by decide)

end Status

namespace Contract

variable {c c' : Contract} {s s' : Status} {authority authority' : PublicKey} {proof : String}

/-- The time at which a status was reached. -/
def statusTime (c : Contract) : Status → Option UInt64
  | .published => some c.createdAt
  | .canceled => c.canceledAt
  | .active => c.activeAt
  | .closed => c.closedAt
  | .spent => c.spentAt
  | .settled => c.settledAt

/-- The fields that describe a status that was reached at some time. -/
def statusFields (c : Contract) (t : UInt64) : Status → Json
  | .published => .obj [("cid", toJson c.cid), ("prop_id", toJson c.propId)]
  | .canceled => .obj [("canceled_at", toJson t)]
  | .active => .obj [("active_at", toJson t), ("expires_at", toJson c.expiresAt),
      ("vmid", toJson c.engineVmid)]
  | .closed => .obj [("closed_at", toJson t), ("head", toJson c.engineHead),
      ("vout", toJson c.engineVout)]
  | .spent => .obj [("spent_at", toJson t), ("txid", toJson c.spentTxid)]
  | .settled => .obj [("settled_at", toJson t)]

/-- The fields that the note about a status describes are the same in both records. -/
def SameAt (c c' : Contract) : Status → Prop
  | .published => c.propId = c'.propId ∧ c.createdAt = c'.createdAt
  | .canceled => c.canceledAt = c'.canceledAt
  | .active => c.activeAt = c'.activeAt ∧ c.expiresAt = c'.expiresAt ∧ c.engineVmid = c'.engineVmid
  | .closed => c.closedAt = c'.closedAt ∧ c.engineHead = c'.engineHead ∧
      c.engineVout = c'.engineVout
  | .spent => c.spentAt = c'.spentAt ∧ c.spentTxid = c'.spentTxid
  | .settled => c.settledAt = c'.settledAt

theorem reachedAt_eq_ok_iff {field : String} {o : Option UInt64} {t : UInt64} :
    reachedAt s field o = .ok t ↔ o = some t := by
  cases o <;> simp [reachedAt]

theorem describe_eq_ok_iff {fields : Json} {t : UInt64} :
    c.describe s = .ok (fields, t) ↔ c.statusTime s = some t ∧ fields = c.statusFields t s := by
  unfold describe
  cases s with
  | published => simp [statusTime, statusFields, and_comm, eq_comm]
  | _ =>
    simp only [bind_eq_ok_iff, reachedAt_eq_ok_iff, pure_eq_ok_iff, Prod.mk.injEq]
    constructor
    · rintro ⟨_, htime, rfl, rfl⟩
      exact ⟨htime, rfl⟩
    · rintro ⟨htime, rfl⟩
      exact ⟨t, htime, rfl, rfl⟩

theorem statusNote_eq_ok_iff {note : Note} :
    c.statusNote s = .ok note ↔ ∃ t, c.statusTime s = some t ∧
      note = .ofStatus c.serverPk c.cid (c.statusFields t s).compact t := by
  unfold statusNote noteContent
  simp only [bind_eq_ok_iff, pure_eq_ok_iff, Prod.exists, describe_eq_ok_iff, Prod.mk.injEq]
  constructor
  · rintro ⟨_, _, ⟨_, t, ⟨htime, rfl⟩, rfl, rfl⟩, rfl⟩
    exact ⟨t, htime, rfl⟩
  · rintro ⟨t, htime, rfl⟩
    exact ⟨_, t, ⟨_, t, ⟨htime, rfl⟩, rfl, rfl⟩, rfl⟩

theorem plain_statusFields (c : Contract) (t : UInt64) (s : Status) :
    (c.statusFields t s).Plain := by
  cases s <;> exact .obj (by simp [Restored.plain])

/-- The fields tell which status they describe. -/
theorem status_eq_of_statusFields {t t' : UInt64} (h : c.statusFields t s = c'.statusFields t' s') :
    s = s' := by
  have hkey : ∀ (c : Contract) t s, ∃ x rest,
      c.statusFields t s = .obj ((s.noteKey, x) :: rest) := by
    intro c t s
    cases s <;> exact ⟨_, _, rfl⟩
  obtain ⟨x, rest, hfields⟩ := hkey c t s
  obtain ⟨x', rest', hfields'⟩ := hkey c' t' s'
  rw [hfields, hfields'] at h
  simp only [Json.obj.injEq, List.cons.injEq, Prod.mk.injEq] at h
  exact Status.noteKey_injective h.1.1

/-- The fields and the time of a status tell what they were taken from. -/
theorem sameAt_of_statusFields {t : UInt64} (htime : c.statusTime s = some t)
    (htime' : c'.statusTime s = some t) (h : c.statusFields t s = c'.statusFields t s) :
    c.SameAt c' s := by
  have hsame := htime.trans htime'.symm
  cases s
  all_goals simp only [statusFields, Json.obj.injEq, List.cons.injEq, Prod.mk.injEq, and_true,
    true_and] at h
  case published =>
    exact ⟨form_injective (restored_digest _) (restored_digest _) h.2, Option.some.inj hsame⟩
  case canceled => exact hsame
  case active =>
    exact ⟨hsame, form_injective (restored_option_uint64 _) (restored_option_uint64 _) h.1,
      form_injective (restored_option_digest _) (restored_option_digest _) h.2⟩
  case closed =>
    exact ⟨hsame, form_injective (restored_option_digest _) (restored_option_digest _) h.1,
      form_injective (restored_option_string _) (restored_option_string _) h.2⟩
  case spent =>
    exact ⟨hsame, form_injective (restored_option_digest _) (restored_option_digest _) h⟩
  case settled => exact hsame

/-! ## Proofs -/

/-- What the digests of a record's notes about some statuses are taken of. -/
def notePreimages (c : Contract) (statuses : List Status) : List (List UInt8) :=
  statuses.filterMap fun s =>
    (c.statusNote s).toOption.map fun n => Digest.preimage (Note.Serial.mk n)

theorem mem_notePreimages_iff {statuses : List Status} {bytes : List UInt8} :
    bytes ∈ c.notePreimages statuses ↔
      ∃ s ∈ statuses, ∃ n, c.statusNote s = .ok n ∧ Digest.preimage (Note.Serial.mk n) = bytes := by
  unfold notePreimages
  simp only [List.mem_filterMap, Option.map_eq_some_iff, toOption_eq_some_iff]

theorem notePreimages_mono {l statuses : List Status} (h : l ⊆ statuses) :
    c.notePreimages l ⊆ c.notePreimages statuses := by
  intro bytes hbytes
  obtain ⟨s, hs, n, hnote, hn⟩ := mem_notePreimages_iff.1 hbytes
  exact mem_notePreimages_iff.2 ⟨s, h hs, n, hnote, hn⟩

/-- A proof that passes for a status holds the digest of the note about it. -/
theorem exists_of_verifyStatusProof
    (h : c.verifyStatusProof authority ⟨s, proof⟩ = .ok ()) :
    ∃ n sig, c.statusNote s = .ok n ∧ parseProof proof = .ok (n.id, sig) := by
  obtain ⟨n, hnote, hproof⟩ := verifyStatusProof_eq_ok_iff.1 h
  obtain ⟨-, sig, hparse, -⟩ := verifyProof_eq_ok_iff.1 hproof
  exact ⟨n, sig, hnote, hparse⟩

/-- Notes that one proof passes for are one note. -/
theorem statusNote_eq_of_verifies
    (hfree : Digest.CollisionFree (c.notePreimages [s] ++ c'.notePreimages [s']))
    (h : c.verifyStatusProof authority ⟨s, proof⟩ = .ok ())
    (h' : c'.verifyStatusProof authority' ⟨s', proof⟩ = .ok ()) :
    ∃ n, c.statusNote s = .ok n ∧ c'.statusNote s' = .ok n := by
  obtain ⟨n, sig, hnote, hparse⟩ := exists_of_verifyStatusProof h
  obtain ⟨n', sig', hnote', hparse'⟩ := exists_of_verifyStatusProof h'
  rw [hparse, Except.ok.injEq, Prod.mk.injEq] at hparse'
  have hmem : Digest.preimage (Note.Serial.mk n) ∈ c.notePreimages [s] :=
    mem_notePreimages_iff.2 ⟨s, List.mem_singleton_self s, n, hnote, rfl⟩
  have hmem' : Digest.preimage (Note.Serial.mk n') ∈ c'.notePreimages [s'] :=
    mem_notePreimages_iff.2 ⟨s', List.mem_singleton_self s', n', hnote', rfl⟩
  have hserial : Note.Serial.mk n = Note.Serial.mk n' :=
    eq_of_ofValue_eq hfree (restored_serial _) (restored_serial _) (List.mem_append_left _ hmem)
      (List.mem_append_right _ hmem') hparse'.1
  obtain rfl : n = n' := congrArg Note.Serial.note hserial
  exact ⟨n, hnote, hnote'⟩

/-- Records that one proof passes for, each as a proof of some status, agree on their server, their
identifier, the status, and what its note describes. -/
theorem sameAt_of_verifies
    (hfree : Digest.CollisionFree (c.notePreimages [s] ++ c'.notePreimages [s']))
    (h : c.verifyStatusProof authority ⟨s, proof⟩ = .ok ())
    (h' : c'.verifyStatusProof authority' ⟨s', proof⟩ = .ok ()) :
    c.serverPk = c'.serverPk ∧ c.cid = c'.cid ∧ s = s' ∧ c.SameAt c' s := by
  obtain ⟨n, hnote, hnote'⟩ := statusNote_eq_of_verifies hfree h h'
  obtain ⟨t, htime, hn⟩ := statusNote_eq_ok_iff.1 hnote
  obtain ⟨t', htime', hn'⟩ := statusNote_eq_ok_iff.1 hnote'
  obtain ⟨hkey, hcid, hcontent, rfl⟩ := Note.ofStatus_injective (hn.symm.trans hn')
  have hfields := Json.compact_injective (plain_statusFields c t s) (plain_statusFields c' t s')
    hcontent
  obtain rfl := status_eq_of_statusFields hfields
  exact ⟨hkey, hcid, rfl, sameAt_of_statusFields htime htime' hfields⟩

/-- A log of proofs that passes for two records makes them agree on their server, on their
identifier and, for every status that it proves, on the fields that the note describes. And no proof
passes for two statuses of a record. Nothing is asked of digests but that those of the notes in
question do not collide. -/
theorem proofs_bind :
    (∀ c c' : Contract, ∀ authority, c.sigs = c'.sigs →
      Digest.CollisionFree (c.notePreimages (c.sigs.map (·.status))
        ++ c'.notePreimages (c'.sigs.map (·.status))) →
      c.verifySignatures authority = .ok () → c'.verifySignatures authority = .ok () →
        c.serverPk = c'.serverPk ∧ c.cid = c'.cid ∧ ∀ e ∈ c.sigs, c.SameAt c' e.status) ∧
    ∀ c : Contract, ∀ authority authority' s s' proof,
      Digest.CollisionFree (c.notePreimages [s, s']) →
      c.verifyStatusProof authority ⟨s, proof⟩ = .ok () →
      c.verifyStatusProof authority' ⟨s', proof⟩ = .ok () → s = s' := by
  constructor
  · intro c c' authority hsigs hfree h h'
    obtain ⟨hproved, hproofs⟩ := verifySignatures_eq_ok_iff.1 h
    obtain ⟨-, hproofs'⟩ := verifySignatures_eq_ok_iff.1 h'
    have hsame : ∀ e ∈ c.sigs,
        c.serverPk = c'.serverPk ∧ c.cid = c'.cid ∧ c.SameAt c' e.status := by
      intro e he
      have hsub : [e.status] ⊆ c.sigs.map (·.status) :=
        List.cons_subset.2 ⟨List.mem_map_of_mem he, List.nil_subset _⟩
      have hsub' : [e.status] ⊆ c'.sigs.map (·.status) := hsigs ▸ hsub
      have hfree' := hfree.mono (List.append_subset.2
        ⟨List.subset_append_of_subset_left _ (notePreimages_mono hsub),
          List.subset_append_of_subset_right _ (notePreimages_mono hsub')⟩)
      obtain ⟨hkey, hcid, -, hfields⟩ :=
        sameAt_of_verifies hfree' (hproofs e he) (hproofs' e (hsigs ▸ he))
      exact ⟨hkey, hcid, hfields⟩
    -- the publication is always proved, so there is a proof that names server and contract
    obtain ⟨e, he, -⟩ := hproved .published (mem_reachedStatuses_iff.2 rfl)
    obtain ⟨hkey, hcid, -⟩ := hsame e he
    exact ⟨hkey, hcid, fun e he => (hsame e he).2.2⟩
  · intro c authority authority' s s' proof hfree h h'
    have hfree' : Digest.CollisionFree (c.notePreimages [s] ++ c.notePreimages [s']) :=
      hfree.mono (List.append_subset.2 ⟨notePreimages_mono (by simp), notePreimages_mono (by simp)⟩)
    obtain ⟨-, -, hstatus, -⟩ := sameAt_of_verifies hfree' h h'
    exact hstatus

/-! ### The proofs of a gift -/

/-- Notes whose digests stand in different proofs do not collide. -/
theorem collisionFree_notePreimages (h : c.verifySignatures authority = .ok ())
    (hdistinct : (c.sigs.map fun e => (parseProof e.proof).toOption.map Prod.fst).Nodup) :
    Digest.CollisionFree (c.notePreimages (c.sigs.map (·.status))) := by
  have hproofs := (verifySignatures_eq_ok_iff.1 h).2
  -- each preimage is that of the note whose digest one of the proofs holds
  have hfound : ∀ bytes ∈ c.notePreimages (c.sigs.map (·.status)), ∃ e ∈ c.sigs, ∃ n,
      c.statusNote e.status = .ok n ∧ Digest.preimage (Note.Serial.mk n) = bytes ∧
        (parseProof e.proof).toOption.map Prod.fst = some (.ofBytes bytes) := by
    intro bytes hbytes
    obtain ⟨s, hs, n, hnote, rfl⟩ := mem_notePreimages_iff.1 hbytes
    obtain ⟨e, he, rfl⟩ := List.mem_map.1 hs
    obtain ⟨n', sig, hnote', hparse⟩ := exists_of_verifyStatusProof (hproofs e he)
    obtain rfl : n = n' := Except.ok.inj (hnote.symm.trans hnote')
    refine ⟨e, he, n, hnote, rfl, ?_⟩
    rw [hparse]
    rfl
  intro a ha b hb hsame
  obtain ⟨e, he, n, hnote, rfl, hdigest⟩ := hfound a ha
  obtain ⟨e', he', n', hnote', rfl, hdigest'⟩ := hfound b hb
  rw [← hsame, ← hdigest] at hdigest'
  obtain rfl := List.inj_on_of_nodup_map hdistinct he' he hdigest'
  obtain rfl : n = n' := Except.ok.inj (hnote.symm.trans hnote')
  rfl

/-- The prices of a record are in none of its notes. -/
theorem verifySignatures_repriced {subtotal vinTxfee txBsize : UInt64} {deposits : List Deposit}
    (h : c.verifySignatures authority = .ok ()) :
    (c.repriced subtotal vinTxfee txBsize deposits).verifySignatures authority = .ok () := h

theorem collisionFree_spentGift :
    Digest.CollisionFree (spentGift.notePreimages (spentGift.sigs.map (·.status))) := by
  refine collisionFree_notePreimages verifySignatures_spentGift ?_
  simp only [spentGift, List.map_cons, List.map_nil, parseProof_proofText]
  decide +kernel

/-- The log of the gift binds it and a copy with other prices alike, and none of its proofs passes for
another of its statuses. -/
theorem spentGift_proofs_bind :
    (spentGift.verifySignatures giftServer = .ok () ∧
      (spentGift.repriced 1 0 0 [giftDeposit]).verifySignatures giftServer = .ok ()) ∧
    (spentGift.serverPk = (spentGift.repriced 1 0 0 [giftDeposit]).serverPk ∧
      spentGift.cid = (spentGift.repriced 1 0 0 [giftDeposit]).cid ∧
        ∀ e ∈ spentGift.sigs, spentGift.SameAt (spentGift.repriced 1 0 0 [giftDeposit]) e.status) ∧
    ∀ e ∈ spentGift.sigs, ∀ s ∈ spentGift.sigs.map (·.status),
      spentGift.verifyStatusProof giftServer ⟨s, e.proof⟩ = .ok () → s = e.status := by
  have hfree := collisionFree_spentGift
  have hproofs := (verifySignatures_eq_ok_iff.1 verifySignatures_spentGift).2
  have hrepriced : (spentGift.repriced 1 0 0 [giftDeposit]).verifySignatures giftServer = .ok () :=
    verifySignatures_repriced verifySignatures_spentGift
  refine ⟨⟨verifySignatures_spentGift, hrepriced⟩, ?_, ?_⟩
  · refine proofs_bind.1 spentGift _ giftServer rfl ?_ verifySignatures_spentGift hrepriced
    -- both records give the same notes
    exact hfree.mono (List.append_subset.2 ⟨List.Subset.refl _, List.Subset.refl _⟩)
  · intro e he s hs hother
    have hsub : [s, e.status] ⊆ spentGift.sigs.map (·.status) :=
      List.cons_subset.2 ⟨hs, List.cons_subset.2 ⟨List.mem_map_of_mem he, List.nil_subset _⟩⟩
    exact proofs_bind.2 spentGift giftServer giftServer s e.status e.proof
      (hfree.mono (notePreimages_mono hsub)) hother (hproofs e he)

end Contract

end JointEscrow
