import JointEscrow.Proofs.Machine.Replay
import Mathlib.Data.List.Induction

/-!
# Who moved a path

A path changes its state in two ways only: a witness moves it when a program is satisfied by keys
that have all signed since the path last changed, or a scheduled task acts on it. The invariant
behind the first is `Backed`: every key in the store goes back to a committed signature, and the
path has kept its state from that commit on. It survives every input because settling a path drops
exactly the keys that the change makes stale.
-/

namespace JointEscrow

/-- The witness carries a signature of the key that verifies over its identifier. -/
def Witness.SignedBy (w : Witness) (k : PublicKey) : Prop :=
  ∃ e ∈ w.endorsements, e.pubkey = k ∧ k.verifies w.id e.signature = true

namespace Machine

variable {m₀ m n : Machine} {w : Witness} {inputs : List Input}

/-- In the run of some inputs the key has signed a committed witness for the action on the path, and
the path has kept its state ever since. -/
def EndorsedSince (m : Machine) (inputs : List Input) (action : Action) (path : String)
    (k : PublicKey) : Prop :=
  ∃ before w after s n, inputs = before ++ .witness w :: after ∧
    m.replay before = some s ∧ s.Commits w n ∧
    w.vmid = m.vmid ∧ w.action = action ∧ w.path = path ∧ w.SignedBy k ∧
    ∀ part, part <+: after → ∀ t, n.replay part = some t → t.pathState? path = s.pathState? path

/-- An endorsement stays good as long as the path keeps its state. -/
theorem EndorsedSince.snoc {action : Action} {path : String} {k : PublicKey} {i : Input}
    (h : m₀.EndorsedSince inputs action path k) (hrun : m₀.replay inputs = some m)
    (haccept : m.accept i = some n) (hkept : n.pathState? path = m.pathState? path) :
    m₀.EndorsedSince (inputs ++ [i]) action path k := by
  obtain ⟨before, w, after, s, s', rfl, hs, hcommits, hvmid, haction, hpath, hsigned, hstable⟩ := h
  refine ⟨before, w, after ++ [i], s, s', by simp, hs, hcommits, hvmid, haction, hpath,
    hsigned, ?_⟩
  -- what came after the witness has led to the present state
  have hafter : s'.replay after = some m := by
    rw [replay_append, hs, Option.bind_some, replay_cons] at hrun
    have haccepts : s.accept (.witness w) = some s' := hcommits.1
    rwa [haccepts, Option.bind_some] at hrun
  intro part hpart t ht
  rcases List.prefix_concat_iff.1 hpart with rfl | hpart
  · obtain ⟨m', hm', haccept'⟩ := replay_snoc_eq_some_iff.1 ht
    have hm : m' = m := Option.some.inj (hm'.symm.trans hafter)
    have ht : t = n := Option.some.inj (haccept'.symm.trans (hm ▸ haccept))
    rw [ht, hkept]
    exact hstable after (List.prefix_refl after) m hafter
  · exact hstable part hpart t ht

/-! ## What a witness does to a path -/

theorem signedBy_of_admitted {current goal : PathState} {keys : SortedSet PublicKey}
    (h : m.Admitted w current goal keys) {k : PublicKey} (hk : k ∈ w.signers) : w.SignedBy k := by
  obtain ⟨e, he, rfl⟩ := List.mem_map.1 hk
  exact ⟨e, he, rfl, h.signed e he⟩

theorem endorsedBy?_accepting (m : Machine) (w : Witness) (keys : SortedSet PublicKey)
    (step : UInt64) (action : Action) (path : String) :
    (m.accepting w keys step).endorsedBy? action path =
      if path = w.path ∧ action = w.action then some keys else m.endorsedBy? action path := by
  change ((record m.store w.path w.action keys).find? path).bind (·.find? action) = _
  unfold record endorsedBy?
  rw [SortedMap.find?_insert]
  by_cases hpath : path = w.path
  · subst hpath
    rw [if_pos rfl, Option.bind_some, SortedMap.find?_insert]
    by_cases haction : action = w.action
    · simp [haction]
    · simp only [haction, if_false, and_false]
      cases m.store.find? w.path with
      | none => rfl
      | some pending => rfl
  · simp [hpath]

theorem endorsedBy?_settle (m : Machine) (label : String) (goal : PathState) (stamp : UInt64)
    (action : Action) (path : String) :
    (m.settle label goal stamp).endorsedBy? action path =
      if path = label then none else m.endorsedBy? action path := by
  unfold endorsedBy?
  rw [store_settle]
  split <;> rfl

/-- A witness that changes a path is committed; it moves its own path, as its action does, on the
word of a satisfied program. -/
theorem eval_change (heval : m.eval w = some n) {l : String}
    (hchange : n.pathState? l ≠ m.pathState? l) :
    w.path = l ∧ m.Commits w n ∧
      ∃ current goal keys p, m.Admitted w current goal keys ∧ n.pathState? l = some goal ∧
        (∀ l', l' ≠ l → n.pathState? l' = m.pathState? l') ∧
          Program.firstSatisfied m.programs w.method w.action w.path keys = some p := by
  cases outcome_of_eval heval with
  | ignored hclosed => exact absurd rfl hchange
  | refused hopen hcheck => exact absurd rfl hchange
  | collected hopen hadmitted hstep hprogram => exact absurd rfl hchange
  | @authorized current goal keys step p hopen hadmitted hstep hprogram =>
    rw [pathState?_settle] at hchange
    by_cases hl : l = w.path
    · subst hl
      refine ⟨rfl, ⟨heval, ?_⟩, current, goal, keys, p, hadmitted, ?_, ?_, hprogram⟩
      · rw [settle_eq]
        rfl
      · rw [pathState?_settle, if_pos rfl]
      · intro l' hl'
        rw [pathState?_settle, if_neg hl']
        rfl
    · rw [if_neg hl] at hchange
      exact absurd rfl hchange

/-! ## What the clock does to a path -/

/-- Between two states of one run of the clock a waiting task has acted on the path: it was open, is
now as the task's action leaves it, and the log has a new link for the firing. -/
structure Fired (stop : UInt64) (m n : Machine) (l : String) (t : Task) : Prop where
  waiting : t ∈ m.tasks
  due : t.due ≤ stop
  matched : t.path.admits l = true
  before : m.pathState? l = some .open
  after : ∃ goal, PathState.open.next? t.action = some goal ∧ n.pathState? l = some goal
  logged : ∃ new, ∃ link ∈ new, n.commits = m.commits ++ new ∧ link.stamp = t.due ∧
    link.wid = (Firing.mk m.vmid t.action l t.due link.step).id

theorem Fired.later {stop : UInt64} {s : Machine} {l : String} {t : Task} (h : Fired stop m n l t)
    (hkept : s.pathState? l = n.pathState? l) (hlog : n.commits <+: s.commits) :
    Fired stop m s l t := by
  obtain ⟨goal, hgoal, hafter⟩ := h.after
  obtain ⟨new, link, hlink, hcommits, hstamp, hwid⟩ := h.logged
  obtain ⟨more, hmore⟩ := hlog
  refine ⟨h.waiting, h.due, h.matched, h.before, ⟨goal, hgoal, hkept.trans hafter⟩, ?_⟩
  refine ⟨new ++ more, link, List.mem_append_left _ hlink, ?_, hstamp, hwid⟩
  rw [← hmore, hcommits, List.append_assoc]

/-- No task leaves a path open that it acts on, so none acts on the same path again. -/
theorem ne_open_of_next? {goal : PathState} {action : Action}
    (h : PathState.open.next? action = some goal) : goal ≠ .open := by
  rintro rfl
  cases action <;> cases h

theorem Fired.sooner {stop : UInt64} {s : Machine} {l : String} {t : Task} (h : Fired stop s n l t)
    (hticks : Ticks stop m s) (hkept : s.pathState? l = m.pathState? l)
    (hlog : m.commits <+: s.commits) : Fired stop m n l t := by
  have hvmid : s.vmid = m.vmid := congrArg Prod.fst (fixed_of_ticks hticks)
  have htasks : s.tasks <:+ m.tasks := tasks_suffix_of_moves (moves_of_ticks hticks)
  obtain ⟨new, link, hlink, hcommits, hstamp, hwid⟩ := h.logged
  obtain ⟨before, hbefore⟩ := hlog
  refine ⟨htasks.subset h.waiting, h.due, h.matched, hkept ▸ h.before, h.after, ?_⟩
  refine ⟨before ++ new, link, List.mem_append_right _ hlink, ?_, hstamp, hvmid ▸ hwid⟩
  rw [hcommits, ← hbefore, List.append_assoc]

/-- Each path is left alone by a tick of the clock, with its pending endorsements, or a task has
acted on it and its endorsements are gone. -/
theorem tick_path {stop : UInt64} (h : Tick stop m n) (l : String) :
    m.commits <+: n.commits ∧
      ((n.pathState? l = m.pathState? l ∧ n.store.find? l = m.store.find? l) ∨
        (n.store.find? l = none ∧ ∃ t, Fired stop m n l t)) := by
  cases h with
  | skipped hopen hwaiting hdue hspan htarget => exact ⟨List.prefix_rfl, .inl ⟨rfl, rfl⟩⟩
  | @fired t r label goal step hopen hwaiting hdue hspan htarget hstep =>
    obtain ⟨hadmits, hbefore, hgoal, -⟩ := target?_spec htarget
    set n := (m.linked (m.firing t label).id t.due step).settle label goal t.due with hn
    have hcommits : n.commits = m.commits ++ [⟨m.step, t.due, (m.firing t label).id, m.head⟩] := by
      rw [hn, settle_eq]
      rfl
    have hstate : n.pathState? l = if l = label then some goal else m.pathState? l :=
      pathState?_settle _ _ _ _ _
    have hstore : n.store.find? l = if l = label then none else m.store.find? l :=
      store_settle _ _ _ _ _
    refine ⟨⟨_, hcommits.symm⟩, ?_⟩
    by_cases hl : l = label
    · subst hl
      rw [if_pos rfl] at hstate hstore
      refine .inr ⟨hstore, t, ?_, hdue, hadmits, hbefore, ⟨goal, hgoal, hstate⟩, ?_⟩
      · exact hwaiting ▸ List.mem_cons_self
      · exact ⟨_, _, List.mem_cons_self, hcommits, rfl, rfl⟩
    · rw [if_neg hl] at hstate hstore
      exact .inl ⟨hstate, hstore⟩

/-- The same for any number of ticks. -/
theorem ticks_path {stop : UInt64} (h : Ticks stop m n) (l : String) :
    m.commits <+: n.commits ∧
      ((n.pathState? l = m.pathState? l ∧ n.store.find? l = m.store.find? l) ∨
        (n.store.find? l = none ∧ ∃ t, Fired stop m n l t)) := by
  induction h with
  | refl => exact ⟨List.prefix_refl _, .inl ⟨rfl, rfl⟩⟩
  | @tail a b hticks htick ih =>
    obtain ⟨hlog, hpath⟩ := ih
    obtain ⟨hgrown, htick⟩ := tick_path htick l
    refine ⟨hlog.trans hgrown, ?_⟩
    rcases htick with ⟨hstate, hstore⟩ | ⟨hgone, t, hfired⟩
    · rcases hpath with ⟨hkept, hpending⟩ | ⟨hgone, t, hfired⟩
      · exact .inl ⟨hstate.trans hkept, hstore.trans hpending⟩
      · exact .inr ⟨hstore.trans hgone, t, hfired.later hstate hgrown⟩
    · refine .inr ⟨hgone, ?_⟩
      rcases hpath with ⟨hkept, -⟩ | ⟨-, t', hfired'⟩
      · exact ⟨t, hfired.sooner hticks hkept hlog⟩
      · -- a path that a task has acted on is not open any more, so no second one acts on it
        obtain ⟨goal, hgoal, hafter⟩ := hfired'.after
        rw [hfired.before] at hafter
        exact absurd (Option.some.inj hafter).symm (ne_open_of_next? hgoal)

/-- The same for a whole run of the clock. -/
theorem run_path {stop : UInt64} (h : m.run stop = some n) (l : String) :
    (n.pathState? l = m.pathState? l ∧ n.store.find? l = m.store.find? l) ∨
      (n.store.find? l = none ∧ ∃ t, Fired stop m n l t) := by
  by_cases hclosed : m.closed = true
  · rw [run_of_closed hclosed] at h
    cases h
    exact .inl ⟨rfl, rfl⟩
  · obtain ⟨s, hticks, hidle, rfl⟩ := ticks_of_run (by simpa using hclosed) h
    obtain ⟨closed, closedAt, updatedAt, hexpired⟩ := expire_eq s stop
    obtain ⟨-, hkept | ⟨hgone, t, hfired⟩⟩ := ticks_path hticks l
    · rw [hexpired]
      exact .inl hkept
    · rw [hexpired]
      exact .inr ⟨hgone, t, hfired.waiting, hfired.due, hfired.matched, hfired.before,
        hfired.after, hfired.logged⟩

/-! ## Whose keys are in the store -/

/-- Every key that the store holds for an action on a path has endorsed that action since the path
last changed. -/
def Backed (m₀ : Machine) (inputs : List Input) (m : Machine) : Prop :=
  ∀ action path keys, m.endorsedBy? action path = some keys →
    ∀ k ∈ keys, m₀.EndorsedSince inputs action path k

/-- The signers of a witness have endorsed its action once it is committed. -/
theorem endorsedSince_of_commits (hrun : m₀.replay inputs = some m) (hcommits : m.Commits w n)
    (hvmid : w.vmid = m₀.vmid) {k : PublicKey} (hk : w.SignedBy k)
    (hkept : n.pathState? w.path = m.pathState? w.path) :
    m₀.EndorsedSince (inputs ++ [.witness w]) w.action w.path k := by
  refine ⟨inputs, w, [], m, n, rfl, hrun, hcommits, hvmid, rfl, rfl, hk, ?_⟩
  intro part hpart t ht
  rw [List.prefix_nil.1 hpart] at ht
  cases ht
  exact hkept

/-- The keys of an admitted witness are its own signers and those that the store held. -/
theorem mem_keys_of_admitted {current goal : PathState} {keys : SortedSet PublicKey}
    (h : m.Admitted w current goal keys) {k : PublicKey} (hk : k ∈ keys) :
    k ∈ w.signers ∨ ∃ old, m.endorsedBy? w.action w.path = some old ∧ k ∈ old := by
  rcases (mem_of_addSigners h.collected).1 hk with hold | hsigner
  · right
    cases hstored : m.endorsedBy? w.action w.path with
    | none =>
      rw [hstored] at hold
      cases hold
    | some old => exact ⟨old, rfl, by rwa [hstored] at hold⟩
  · exact .inl hsigner

theorem Backed.witness (hbacked : m₀.Backed inputs m) (hrun : m₀.replay inputs = some m)
    (heval : m.eval w = some n) : m₀.Backed (inputs ++ [.witness w]) n := by
  have haccept : m.accept (.witness w) = some n := heval
  intro action path keys hstored k hk
  cases outcome_of_eval heval with
  | ignored hclosed => exact (hbacked action path keys hstored k hk).snoc hrun haccept rfl
  | refused hopen hcheck => exact (hbacked action path keys hstored k hk).snoc hrun haccept rfl
  | @collected current goal all step hopen hadmitted hstep hprogram =>
    rw [endorsedBy?_accepting] at hstored
    split at hstored
    · next hpending =>
      obtain ⟨rfl, rfl⟩ := hpending
      cases hstored
      -- a new key signed this witness, an old one was in the store already
      rcases mem_keys_of_admitted hadmitted hk with hsigner | ⟨old, hold, hk⟩
      · have hvmid : w.vmid = m₀.vmid :=
          hadmitted.vmid.trans (congrArg Prod.fst (fixed_of_replay hrun))
        exact endorsedSince_of_commits hrun ⟨heval, rfl⟩ hvmid
          (signedBy_of_admitted hadmitted hsigner) rfl
      · exact (hbacked _ _ old hold k hk).snoc hrun haccept rfl
    · exact (hbacked action path keys hstored k hk).snoc hrun haccept rfl
  | @authorized current goal all step p hopen hadmitted hstep hprogram =>
    -- the keys for the path are gone with the change that makes them stale
    rw [endorsedBy?_settle] at hstored
    by_cases hpath : path = w.path
    · rw [if_pos hpath] at hstored
      cases hstored
    · rw [if_neg hpath, endorsedBy?_accepting, if_neg (fun h => hpath h.1)] at hstored
      refine (hbacked action path keys hstored k hk).snoc hrun haccept ?_
      rw [pathState?_settle, if_neg hpath]
      rfl

theorem Backed.clock {stop : UInt64} (hbacked : m₀.Backed inputs m)
    (hrun : m₀.replay inputs = some m) (hclock : m.run stop = some n) :
    m₀.Backed (inputs ++ [.clock stop]) n := by
  intro action path keys hstored k hk
  unfold endorsedBy? at hstored
  rcases run_path hclock path with ⟨hkept, hstore⟩ | ⟨hgone, -⟩
  · rw [hstore] at hstored
    exact (hbacked action path keys hstored k hk).snoc hrun hclock hkept
  · rw [hgone] at hstored
    cases hstored

theorem backed_of_replay (hstart : m₀.store = .empty) (hrun : m₀.replay inputs = some m) :
    m₀.Backed inputs m := by
  induction inputs using List.reverseRecOn generalizing m with
  | nil =>
    cases hrun
    intro action path keys hstored
    rw [endorsedBy?, hstart] at hstored
    cases hstored
  | append_singleton before i ih =>
    obtain ⟨s, hbefore, haccept⟩ := replay_snoc_eq_some_iff.1 hrun
    cases i with
    | witness w => exact (ih hbefore).witness hbefore haccept
    | clock stop => exact (ih hbefore).clock hbefore haccept

/-! ## Authorization -/

/-- Nothing moves a path but what the configuration provides for. Where a witness changes a path,
the path is its own, the change is the one of the transition table, and some program has as many
distinct keys as it asks for, each permitted and each with a signature on a witness for this action
that the run has committed since the path last changed. Where the clock changes a path, a scheduled
task has acted on it. -/
theorem change_is_authorized {c : MachineConfig} (hinit : init c = .ok m₀)
    (hrun : m₀.replay inputs = some m) :
    (∀ w n l, m.eval w = some n → n.pathState? l ≠ m.pathState? l →
      w.path = l ∧ m.Commits w n ∧
        (∃ old goal, m.pathState? l = some old ∧ old.next? w.action = some goal ∧
          n.pathState? l = some goal) ∧
        (∀ l', l' ≠ l → n.pathState? l' = m.pathState? l') ∧
        ∃ p ∈ c.programs, (Program.ofTerms p).grants w.method w.action l = true ∧
          ∃ keys : List PublicKey, keys.Nodup ∧ p.threshold.toNat ≤ keys.length ∧
            ∀ k ∈ keys, (Program.ofTerms p).permits k = true ∧
              (w.vmid = c.vmid ∧ w.SignedBy k ∨ m₀.EndorsedSince inputs w.action l k)) ∧
    (∀ stop n l, m.run stop = some n → n.pathState? l ≠ m.pathState? l →
      ∃ e ∈ c.schedule, Fired stop m n l ⟨c.activeAt + e.stamp, e.action, e.path⟩) := by
  obtain ⟨paths, -, -, hm₀⟩ := init_eq_ok hinit
  have hfixed := fixed_of_replay hrun
  constructor
  · intro w n l heval hchange
    obtain ⟨rfl, hcommits, old, goal, keys, p, hadmitted, hgoal, hothers, hprogram⟩ :=
      eval_change heval hchange
    have hp := List.find?_some hprogram
    rw [Bool.and_eq_true] at hp
    obtain ⟨hgrants, hsatisfied⟩ := hp
    have hprograms : m.programs = c.programs.map .ofTerms := by
      have hkept : m.programs = m₀.programs := congrArg (fun f => f.2.2.2.2) hfixed
      rw [hkept, hm₀]
    have hmem := List.mem_of_find?_eq_some hprogram
    rw [hprograms] at hmem
    obtain ⟨terms, hterms, rfl⟩ := List.mem_map.1 hmem
    -- the keys that count are those of the satisfied program among all that have endorsed
    refine ⟨rfl, hcommits, ⟨old, goal, hadmitted.state, hadmitted.admits, hgoal⟩, hothers, terms,
      hterms, hgrants, keys.elements.filter (Program.ofTerms terms).permits,
      keys.nodup_elements.filter _, of_decide_eq_true hsatisfied, ?_⟩
    intro k hk
    rw [List.mem_filter] at hk
    refine ⟨hk.2, ?_⟩
    have hvmid : w.vmid = c.vmid := by
      rw [hadmitted.vmid, show m.vmid = m₀.vmid from congrArg Prod.fst hfixed, hm₀]
    rcases mem_keys_of_admitted hadmitted hk.1 with hsigner | ⟨stored, hstored, hk⟩
    · exact .inl ⟨hvmid, signedBy_of_admitted hadmitted hsigner⟩
    · exact .inr (backed_of_replay (by rw [hm₀]) hrun _ _ stored hstored k hk)
  · intro stop n l hclock hchange
    rcases run_path hclock l with ⟨hkept, -⟩ | ⟨-, t, hfired⟩
    · exact absurd hkept hchange
    · have hscheduled : t ∈ c.tasks := by
        have hsub := (tasks_suffix_of_moves (moves_of_replay hrun)).subset hfired.waiting
        rw [hm₀] at hsub
        exact hsub
      obtain ⟨e, he, rfl⟩ := mem_tasks hscheduled
      exact ⟨e, he, hfired⟩

/-! ### A deposit of two parties -/

def buyerKey : PublicKey :=
  ⟨takeBytes 32
    (bigEndian 32 0x8a88e3dd7409f195fd52db2d3cba5d72ca6709bf1d94121bf3748801b40f6f5c)⟩

def sellerKey : PublicKey :=
  ⟨takeBytes 32
    (bigEndian 32 0x8139770ea87d175f56a35466c34c7ecccb8d8a91b4ee37a25df60f5b8fc9b394)⟩

/-- A deposit that its buyer and its seller can only close together. -/
def jointDeposit : MachineConfig where
  vmid := .zero
  activeAt := 500
  expiresAt := 1500
  engine := engineLabel
  pathnames := ["deposit"]
  programs := [⟨.endorse, .tokens ["close"], .tokens ["deposit"], 2, [buyerKey, sellerKey]⟩]
  schedule := [⟨900, .dispute, .any⟩]

/-- The buyer's word, given first. -/
def buyerWitness : Witness where
  vmid := .zero
  method := .endorse
  action := .close
  path := "deposit"
  stamp := 510
  step := 0
  endorsements := [⟨buyerKey, ⟨takeBytes 64
    (bigEndian 32 0x9f8458b7787cb64cfdef01493f283a6ec09af6d3499fd9e2285323d20d2e2ff8 ++
      bigEndian 32 0x37751e539d7d749eafaaf5d21f1cf71a1b37a06123a94eb4174c75b26b83a70a)⟩⟩]

/-- The seller's word on the same action. -/
def sellerWitness : Witness where
  vmid := .zero
  method := .endorse
  action := .close
  path := "deposit"
  stamp := 520
  step := 1
  endorsements := [⟨sellerKey, ⟨takeBytes 64
    (bigEndian 32 0x1320a731038a94265743b68bb7176b4b5a4f117d1506e6334b8c62579610380c ++
      bigEndian 32 0x5b85d12186a1e719e0782d05fcd7b69c0af995f3c127e8e13fee62a68a819402)⟩⟩]

/-- The deposit before the first word, after it, and after both. -/
def jointRun : Option (Machine × Machine × Machine) := do
  let m₀ ← (init jointDeposit).toOption
  let m ← m₀.replay [.witness buyerWitness]
  let n ← m.eval sellerWitness
  return (m₀, m, n)

/-- The second word closes the deposit, on the strength of both. -/
theorem jointDeposit_closes :
    ∃ m₀ m n, init jointDeposit = .ok m₀ ∧ m₀.replay [.witness buyerWitness] = some m ∧
      m.eval sellerWitness = some n ∧ n.pathState? "deposit" = some .closed ∧
        ∃ keys : List PublicKey, keys.Nodup ∧ 2 ≤ keys.length ∧
          ∀ k ∈ keys, sellerWitness.SignedBy k ∨
            m₀.EndorsedSince [.witness buyerWitness] .close "deposit" k := by
  have hrun : (jointRun.any fun (_, m, n) => decide (m.pathState? "deposit" = some .open ∧
      n.pathState? "deposit" = some .closed)) = true := by decide +kernel
  obtain ⟨⟨m₀, m, n⟩, hrun, hstates⟩ := Option.any_eq_true _ _ |>.1 hrun
  obtain ⟨hbefore, hafter⟩ := of_decide_eq_true hstates
  unfold jointRun at hrun
  simp only [Option.bind_eq_bind, Option.bind_eq_some_iff, toOption_eq_some_iff, Option.pure_def,
    Option.some.injEq, Prod.mk.injEq] at hrun
  obtain ⟨m₀, hinit, m, hm, n, hn, rfl, rfl, rfl⟩ := hrun
  have hchange : n.pathState? "deposit" ≠ m.pathState? "deposit" := by
    rw [hbefore, hafter]
    decide
  obtain ⟨-, -, -, -, p, hp, -, keys, hnodup, hcount, hkeys⟩ :=
    (change_is_authorized hinit hm).1 _ _ _ hn hchange
  rw [List.mem_singleton.1 hp] at hcount
  exact ⟨m₀, m, n, hinit, hm, hn, hafter, keys, hnodup, hcount, fun k hk =>
    (hkeys k hk).2.imp And.right id⟩

end Machine

end JointEscrow
