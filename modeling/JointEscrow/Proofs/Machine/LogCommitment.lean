import JointEscrow.Proofs.Machine.Agreement
import JointEscrow.Proofs.Machine.LogChain
import JointEscrow.Proofs.Records
import Mathlib.Data.List.Nodup

/-!
# What the head of a log commits to

Every link is chained to the head before it, and the chain starts at the digest of a configuration.
Where the digests do not collide, a head therefore tells the configuration and every link that led
to it (`followed_eq_of_head_eq`), and a log that verifies under the head of another one is that log
(`verifies_iff_of_head_eq`). What the head does not tell are the stamps of the links.
-/

namespace JointEscrow

/-! ## The two kinds of preimages -/

/-- The written form of a configuration is longer than a link, for it has a whole digest in it. -/
theorem MachineConfig.lt_length_preimage (c : MachineConfig) : 64 < (Digest.preimage c).length := by
  have hhex : c.vmid.hex.toList.length = 64 := by
    unfold Digest.hex Hex.encode
    rw [String.toList_ofList, Hex.length_digits, Vector.length_toList]
  have htext := Json.length_le_renderText c.vmid.hex
  have hrender : (Json.renderText c.vmid.hex).length < (toJson c).render.length := by
    show _ < (Json.render (.obj (("vmid", .str c.vmid.hex) :: _))).length
    rw [Json.render]
    simp only [Json.render, List.length_cons, List.length_append]
    omega
  have hbytes := length_le_utf8 (toJson c).render
  unfold Digest.preimage Json.compact
  omega

/-! ## From the head back to the start -/

namespace Machine

variable {c₁ c₂ : MachineConfig} {m₁ m₂ : Machine}

/-- Two links are at the same place of a log and commit to the same thing after the same head. -/
structure SameLink (a b : Commit) : Prop where
  step : a.step = b.step
  wid : a.wid = b.wid
  priorHead : a.priorHead = b.priorHead

/-- What the digest of a link is taken of. -/
def linkPreimage (l : Commit) : List UInt8 := Digest.link l.priorHead l.wid

/-- What the digests are taken of along a log: the configuration and every link. -/
def logPreimages (c : MachineConfig) (m : Machine) : List (List UInt8) :=
  Digest.preimage c :: m.commits.map linkPreimage

/-- Two chains that end in the same head are the same, down to what their first heads are the
digests of. -/
theorem followed_eq_of_head_eq {table : List (List UInt8)} (hfree : Digest.CollisionFree table)
    {p q : List UInt8} (hp : p ∈ table) (hq : q ∈ table) (hplong : 64 < p.length)
    (hqlong : 64 < q.length) {a b : List Commit} (ha : ∀ l ∈ a, linkPreimage l ∈ table)
    (hb : ∀ l ∈ b, linkPreimage l ∈ table) {head : Digest}
    (hfollowa : followLinks 0 0 (.ofBytes p) a = .ok head)
    (hfollowb : followLinks 0 0 (.ofBytes q) b = .ok head) :
    p = q ∧ List.Forall₂ SameLink a b := by
  -- a first head is no link, as a link is shorter than the preimage of a first head
  have hnolink : ∀ l : Commit, ∀ s : List UInt8, s ∈ table → 64 < s.length →
      linkPreimage l ∈ table → Digest.ofBytes s ≠ .chain l.priorHead l.wid := by
    intro l s hs hlong hl heq
    have hsame : s = linkPreimage l := hfree s hs _ hl heq
    rw [hsame, linkPreimage, Digest.length_link] at hlong
    exact Nat.lt_irrefl _ hlong
  -- the induction is from the end, where the head tells the last link and the head before it
  induction a using List.reverseRecOn generalizing b head with
  | nil =>
    rw [followLinks_nil_eq_ok_iff] at hfollowa
    rcases List.eq_nil_or_concat b with rfl | ⟨r, y, rfl⟩
    · rw [followLinks_nil_eq_ok_iff] at hfollowb
      exact ⟨hfree p hp q hq (hfollowa.trans hfollowb.symm), .nil⟩
    · rw [List.concat_eq_append] at hfollowb hb
      obtain ⟨-, -, hlast⟩ := followLinks_snoc_eq_ok_iff.1 hfollowb
      exact absurd (hfollowa.trans hlast) (hnolink y p hp hplong (hb y (by simp)))
  | append_singleton r x ih =>
    obtain ⟨hfollowr, hxstep, hxlast⟩ := followLinks_snoc_eq_ok_iff.1 hfollowa
    rcases List.eq_nil_or_concat b with rfl | ⟨s, y, rfl⟩
    · rw [followLinks_nil_eq_ok_iff] at hfollowb
      exact absurd (hfollowb.trans hxlast) (hnolink x q hq hqlong (ha x (by simp)))
    · rw [List.concat_eq_append] at hfollowb hb
      obtain ⟨hfollows, hystep, hylast⟩ := followLinks_snoc_eq_ok_iff.1 hfollowb
      have hlink : linkPreimage x = linkPreimage y :=
        hfree _ (ha x (by simp)) _ (hb y (by simp)) (hxlast.symm.trans hylast)
      obtain ⟨hprior, hwid⟩ := Digest.link_injective hlink
      rw [hprior] at hfollowr
      obtain ⟨hfirst, hrest⟩ := ih (fun l hl => ha l (by simp [hl]))
        (fun l hl => hb l (by simp [hl])) hfollowr hfollows
      have hstep : x.step = y.step := by
        rw [← UInt64.toNat_inj, ← hxstep, ← hystep, hrest.length_eq]
      refine ⟨hfirst, ?_⟩
      rw [List.concat_eq_append]
      exact List.rel_append hrest (.cons ⟨hstep, hwid, hprior⟩ .nil)

/-- Links that commit to the same things are followed alike. -/
theorem followLinks_congr {first : UInt64} {i : Nat} {head last : Digest} {a b : List Commit}
    (h : List.Forall₂ SameLink a b) :
    followLinks first i head a = .ok last ↔ followLinks first i head b = .ok last := by
  induction h generalizing i head with
  | nil => exact Iff.rfl
  | cons hlink _ ih =>
    rw [followLinks_cons_eq_ok_iff, followLinks_cons_eq_ok_iff, hlink.step, hlink.wid,
      hlink.priorHead, ih]

/-! ## Logs under one head -/

/-- Under the head of a verified log, another log verifies exactly when it has the same
configuration, the same links and the same count. No log that lacks a link, has one more, has them
in another order or has another one in place of one of them verifies under that head. -/
theorem verifies_iff_of_head_eq (hwritten₁ : c₁.Written) (hwritten₂ : c₂.Written)
    (hfree : Digest.CollisionFree (logPreimages c₁ m₁ ++ logPreimages c₂ m₂))
    (hverified : m₁.verifyFromGenesis c₁ = .ok ()) (hhead : m₁.head = m₂.head) :
    m₂.verifyFromGenesis c₂ = .ok () ↔
      c₁ = c₂ ∧ List.Forall₂ SameLink m₁.commits m₂.commits ∧ m₁.step = m₂.step := by
  rw [verifyFromGenesis_eq_ok_iff] at hverified ⊢
  obtain ⟨hlinks₁, hcount₁⟩ := hverified
  constructor
  · rintro ⟨hlinks₂, hcount₂⟩
    rw [← hhead] at hlinks₂
    have hmem₁ : ∀ l ∈ m₁.commits,
        linkPreimage l ∈ logPreimages c₁ m₁ ++ logPreimages c₂ m₂ := by
      intro l hl
      exact List.mem_append_left _ (List.mem_cons_of_mem _ (List.mem_map_of_mem hl))
    have hmem₂ : ∀ l ∈ m₂.commits,
        linkPreimage l ∈ logPreimages c₁ m₁ ++ logPreimages c₂ m₂ := by
      intro l hl
      exact List.mem_append_right _ (List.mem_cons_of_mem _ (List.mem_map_of_mem hl))
    obtain ⟨hgenesis, hsame⟩ := followed_eq_of_head_eq hfree
      (List.mem_append_left _ List.mem_cons_self) (List.mem_append_right _ List.mem_cons_self)
      c₁.lt_length_preimage c₂.lt_length_preimage hmem₁ hmem₂ hlinks₁ hlinks₂
    refine ⟨preimage_injective hwritten₁.restored hwritten₂.restored hgenesis, hsame, ?_⟩
    rw [← hcount₁, ← hcount₂, hsame.length_eq]
  · rintro ⟨rfl, hsame, hstep⟩
    rw [← hhead, ← hstep, ← followLinks_congr hsame, ← hsame.length_eq]
    exact ⟨hlinks₁, hcount₁⟩

/-! ### Logs of one link -/

/-- The locked deposit's machine with a log of one link, under the head of the digest of zeros. -/
def oneLink (stamp : UInt64) (wid : Digest) : Machine :=
  { lockedStart with
    commits := [⟨0, stamp, wid, lockedDeposit.genesis⟩]
    head := .chain lockedDeposit.genesis .zero
    step := 1 }

/-- A digest that the head does not commit to. -/
def forgedId : Digest := ⟨Vector.replicate 32 1⟩

theorem verifies_oneLink (stamp : UInt64) :
    (oneLink stamp .zero).verifyFromGenesis lockedDeposit = .ok () := by
  refine verifyFromGenesis_eq_ok_iff.2 ⟨?_, rfl⟩
  exact followLinks_cons_eq_ok_iff.2 ⟨rfl, rfl, followLinks_nil_eq_ok_iff.2 rfl⟩

theorem written_lockedDeposit : lockedDeposit.Written := by
  have hany : Pattern.any.Written := ⟨"*", by decide⟩
  constructor
  · intro p hp
    obtain rfl := List.mem_singleton.1 hp
    exact ⟨⟨"release", by decide +kernel⟩, ⟨"deposit", by decide +kernel⟩⟩
  · intro e he
    rcases List.mem_pair.1 he with rfl | rfl
    · exact hany
    · exact hany

theorem genesis_lockedDeposit : lockedDeposit.genesis =
    .ofNat 0x69af8dec19171de85d178bdb65b6b51a0df1a82d63812eb1f718038c4d6d251a := by
  show Digest.ofBytes (utf8 (Json.compact _)) = _
  -- the digits are left as characters, which are cheaper to evaluate than texts
  rw [Json.utf8_compact]
  simp only [toJson, lockedDeposit, List.map_cons, List.map_nil, Json.render, Json.renderItems,
    Json.renderMembers, Digest.hex, PublicKey.hex, Hex.encode, Json.renderText_ofList]
  decide +kernel

theorem collisionFree_oneLink (s t : UInt64) {wid : Digest} (hwid : wid = .zero ∨ wid = forgedId) :
    Digest.CollisionFree (logPreimages lockedDeposit (oneLink s .zero)
      ++ logPreimages lockedDeposit (oneLink t wid)) := by
  -- the three preimages in question have three digests
  have hnodup : ([Digest.preimage lockedDeposit, Digest.link lockedDeposit.genesis .zero,
      Digest.link lockedDeposit.genesis forgedId].map Digest.ofBytes).Nodup := by
    show [lockedDeposit.genesis, .ofBytes (Digest.link lockedDeposit.genesis .zero),
      .ofBytes (Digest.link lockedDeposit.genesis forgedId)].Nodup
    rw [genesis_lockedDeposit]
    decide +kernel
  have hsub : logPreimages lockedDeposit (oneLink s .zero)
      ++ logPreimages lockedDeposit (oneLink t wid) ⊆
        [Digest.preimage lockedDeposit, Digest.link lockedDeposit.genesis .zero,
          Digest.link lockedDeposit.genesis forgedId] := by
    rcases hwid with rfl | rfl <;> simp [logPreimages, linkPreimage, oneLink]
  intro a ha b hb h
  exact List.inj_on_of_nodup_map hnodup (hsub ha) (hsub hb) h

/-- A head does not tell when a link was stamped, and it does tell what the link commits to. -/
theorem oneLink_verifies :
    (oneLink 570 .zero).verifyFromGenesis lockedDeposit = .ok () ∧
      (oneLink 560 forgedId).verifyFromGenesis lockedDeposit ≠ .ok () := by
  constructor
  · have hsame : List.Forall₂ SameLink (oneLink 560 .zero).commits (oneLink 570 .zero).commits :=
      .cons ⟨rfl, rfl, rfl⟩ .nil
    exact (verifies_iff_of_head_eq written_lockedDeposit written_lockedDeposit
      (collisionFree_oneLink 560 570 (.inl rfl)) (verifies_oneLink 560) rfl).2 ⟨rfl, hsame, rfl⟩
  · intro hforged
    obtain ⟨-, hsame, -⟩ := (verifies_iff_of_head_eq written_lockedDeposit written_lockedDeposit
      (collisionFree_oneLink 560 560 (.inr rfl)) (verifies_oneLink 560) rfl).1 hforged
    obtain ⟨hlink, -⟩ := List.forall₂_cons.1 hsame
    exact absurd hlink.wid (by decide)

end Machine

end JointEscrow
