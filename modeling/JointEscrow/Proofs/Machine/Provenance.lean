import JointEscrow.Proofs.Machine.History
import JointEscrow.Proofs.Records
import Mathlib.Data.List.Nodup

/-!
# Where the links of a log come from

Every link of a log goes back to one origin: a witness that was given at that step, or a scheduled
task that fired. `Adds` says what one input, and then a whole run, adds to the log. Since each link
takes the step of its origin and each step has one link, no witness is committed twice, no two
witnesses for one step are both committed, and no two links are digests of the same bytes
(`unrepeated_of_replay`).
-/

namespace JointEscrow

/-! ## Origins -/

/-- What a link of a log notes: a witness, or the firing of a task. -/
inductive Origin where
  | witness (w : Witness)
  | firing (f : Firing)

namespace Origin

def step : Origin → UInt64
  | witness w => w.step
  | firing f => f.step

def stamp : Origin → UInt64
  | witness w => w.stamp
  | firing f => f.stamp

/-- The record whose text is hashed: a witness without its endorsements, or the firing. -/
def form : Origin → Json
  | witness w => toJson w.request
  | firing f => toJson f

/-- The bytes that the link has the digest of. -/
def preimage (o : Origin) : List UInt8 := utf8 o.form.compact

/-- The link that notes the origin after some head. -/
def link (o : Origin) (prior : Digest) : Commit := ⟨o.step, o.stamp, .ofBytes o.preimage, prior⟩

theorem plain_form (o : Origin) : o.form.Plain := by
  cases o with
  | witness w => exact .obj (by simp [Restored.plain])
  | firing f => exact .obj (by simp [Restored.plain])

theorem step_form (o : Origin) : o.form.member? "step" = some (.num o.step) := by
  cases o with
  | witness w => rfl
  | firing f => rfl

/-- What is hashed tells the step, whatever stands in the other fields. -/
theorem step_of_preimage_eq {o p : Origin} (h : o.preimage = p.preimage) : o.step = p.step := by
  have hform : o.form = p.form :=
    Json.compact_injective o.plain_form p.plain_form (utf8_injective h)
  have hstep : some (Json.num o.step) = some (.num p.step) := by
    rw [← step_form o, hform, step_form p]
  exact Json.num.inj (Option.some.inj hstep)

end Origin

namespace Machine

variable {m₀ m n k : Machine} {c : MachineConfig} {w : Witness} {inputs : List Input}
  {os ps : List Origin} {stop : UInt64}

/-! ## What is added to a log -/

/-- From one state to the other the log has got links, one for each of the origins in their order.
-/
def Adds (m n : Machine) (os : List Origin) : Prop :=
  ∃ links, n.commits = m.commits ++ links ∧
    List.Forall₂ (fun l (o : Origin) => ∃ prior, l = o.link prior) links os

theorem Adds.nil (h : n.commits = m.commits) : Adds m n [] :=
  ⟨[], by rw [h, List.append_nil], .nil⟩

theorem Adds.single {o : Origin} (prior : Digest) (h : n.commits = m.commits ++ [o.link prior]) :
    Adds m n [o] :=
  ⟨[o.link prior], h, .cons ⟨prior, rfl⟩ .nil⟩

theorem Adds.append (h : Adds m n os) (h' : Adds n k ps) : Adds m k (os ++ ps) := by
  obtain ⟨links, hlog, hlinks⟩ := h
  obtain ⟨more, hlog', hmore⟩ := h'
  refine ⟨links ++ more, ?_, List.rel_append hlinks hmore⟩
  rw [hlog', hlog, List.append_assoc]

/-- A witness adds nothing to the log, or the one link that notes it. -/
theorem adds_of_eval (h : m.eval w = some n) :
    n.commits = m.commits ∨
      n.commits = m.commits ++ [(Origin.witness w).link m.head] ∧ w.step = m.step ∧
        w.vmid = m.vmid := by
  cases outcome_of_eval h with
  | ignored hclosed => exact .inl rfl
  | refused hopen hcheck => exact .inl rfl
  | collected hopen hadmitted hstep hprogram =>
    refine .inr ⟨?_, hadmitted.step, hadmitted.vmid⟩
    show m.commits ++ [⟨m.step, w.stamp, w.id, m.head⟩] = _
    rw [← hadmitted.step]
    rfl
  | authorized hopen hadmitted hstep hprogram =>
    refine .inr ⟨?_, hadmitted.step, hadmitted.vmid⟩
    rw [settle_eq]
    show m.commits ++ [⟨m.step, w.stamp, w.id, m.head⟩] = _
    rw [← hadmitted.step]
    rfl

/-- The origin is the firing of a task that waits in the machine and is due by a time. -/
def FiresBy (m : Machine) (stop : UInt64) (o : Origin) : Prop :=
  ∃ f t, o = .firing f ∧ f.vmid = m.vmid ∧ t ∈ m.tasks ∧ f.action = t.action ∧ f.stamp = t.due ∧
    t.due ≤ stop ∧ t.path.admits f.path = true

theorem FiresBy.sooner {o : Origin} (h : n.FiresBy stop o) (hvmid : n.vmid = m.vmid)
    (htasks : n.tasks <:+ m.tasks) : m.FiresBy stop o := by
  obtain ⟨f, t, rfl, hf, ht, hfired⟩ := h
  exact ⟨f, t, rfl, hf.trans hvmid, htasks.subset ht, hfired⟩

theorem adds_of_tick (h : Tick stop m n) : ∃ os, Adds m n os ∧ ∀ o ∈ os, m.FiresBy stop o := by
  cases h with
  | skipped hopen htasks hdue hspan htarget => exact ⟨[], .nil rfl, nofun⟩
  | @fired t r label goal step hopen htasks hdue hspan htarget hstep =>
    refine ⟨[.firing (m.firing t label)], .single m.head ?_, ?_⟩
    · rw [settle_eq]
      rfl
    · intro o ho
      obtain rfl := List.mem_singleton.1 ho
      have hwaits : t ∈ m.tasks := htasks ▸ List.mem_cons_self
      exact ⟨_, t, rfl, rfl, hwaits, rfl, rfl, hdue, (target?_spec htarget).1⟩

theorem adds_of_ticks (h : Ticks stop m n) : ∃ os, Adds m n os ∧ ∀ o ∈ os, m.FiresBy stop o := by
  induction h with
  | refl => exact ⟨[], .nil rfl, nofun⟩
  | @tail a b hticks htick ih =>
    obtain ⟨os, hos, hfired⟩ := ih
    obtain ⟨ps, hps, hfired'⟩ := adds_of_tick htick
    have hvmid : a.vmid = m.vmid := congrArg Prod.fst (fixed_of_ticks hticks)
    have htasks : a.tasks <:+ m.tasks := tasks_suffix_of_moves (moves_of_ticks hticks)
    refine ⟨os ++ ps, hos.append hps, ?_⟩
    intro o ho
    rcases List.mem_append.1 ho with ho | ho
    · exact hfired o ho
    · exact (hfired' o ho).sooner hvmid htasks

/-- The clock adds links for the tasks that fire, and nothing else. -/
theorem adds_of_run (h : m.run stop = some n) :
    ∃ os, Adds m n os ∧ ∀ o ∈ os, m.FiresBy stop o := by
  by_cases hclosed : m.closed = true
  · rw [run_of_closed hclosed] at h
    cases h
    exact ⟨[], .nil rfl, nofun⟩
  · obtain ⟨s, hticks, hidle, rfl⟩ := ticks_of_run (by simpa using hclosed) h
    obtain ⟨os, ⟨links, hlog, hlinks⟩, hfired⟩ := adds_of_ticks hticks
    obtain ⟨closed, closedAt, updatedAt, hexpired⟩ := expire_eq s stop
    refine ⟨os, ⟨links, ?_, hlinks⟩, hfired⟩
    rw [hexpired]
    exact hlog

/-! ## What a run adds -/

/-- In the run of the inputs the witness that comes right after those before it is taken into the
log. -/
def TakesIn (m₀ : Machine) (inputs before : List Input) (w : Witness) : Prop :=
  before ++ [.witness w] <+: inputs ∧
    ∃ s n, m₀.replay before = some s ∧ s.eval w = some n ∧ n.commits ≠ s.commits

theorem TakesIn.longer {before : List Input} (h : m₀.TakesIn inputs before w) (i : Input) :
    m₀.TakesIn (inputs ++ [i]) before w :=
  ⟨h.1.trans (List.prefix_append inputs [i]), h.2⟩

/-- The origin is one that the run of the inputs can give: a witness that it takes in, or a task
that fires by a time that the clock was advanced to. -/
def Gives (m₀ : Machine) (inputs : List Input) : Origin → Prop
  | .witness w => ∃ before, m₀.TakesIn inputs before w
  | .firing f => ∃ stop, .clock stop ∈ inputs ∧ m₀.FiresBy stop (.firing f)

theorem Gives.longer {o : Origin} (h : m₀.Gives inputs o) (i : Input) :
    m₀.Gives (inputs ++ [i]) o := by
  cases o with
  | witness w =>
    obtain ⟨before, htakes⟩ := h
    exact ⟨before, htakes.longer i⟩
  | firing f =>
    obtain ⟨stop, hmem, hfires⟩ := h
    exact ⟨stop, List.mem_append_left _ hmem, hfires⟩

/-- What one more input adds, the run of all inputs gives. -/
theorem adds_of_accept {i : Input} (hrun : m₀.replay inputs = some m)
    (h : m.accept i = some n) : ∃ os, Adds m n os ∧ ∀ o ∈ os, m₀.Gives (inputs ++ [i]) o := by
  cases i with
  | witness w =>
    rcases adds_of_eval h with hsame | ⟨hlog, -, -⟩
    · exact ⟨[], .nil hsame, nofun⟩
    · refine ⟨[.witness w], .single m.head hlog, ?_⟩
      intro o ho
      obtain rfl := List.mem_singleton.1 ho
      refine ⟨inputs, List.prefix_rfl, m, n, hrun, h, ?_⟩
      rw [hlog]
      simp
  | clock stop =>
    obtain ⟨os, hos, hfired⟩ := adds_of_run h
    refine ⟨os, hos, ?_⟩
    intro o ho
    have hvmid : m.vmid = m₀.vmid := congrArg Prod.fst (fixed_of_replay hrun)
    have htasks : m.tasks <:+ m₀.tasks := tasks_suffix_of_moves (moves_of_replay hrun)
    obtain ⟨f, t, rfl, hfires⟩ := (hfired o ho).sooner hvmid htasks
    exact ⟨stop, List.mem_append_right _ List.mem_cons_self, f, t, rfl, hfires⟩

/-- The links that a run adds have origins that the run gives. -/
theorem adds_of_replay (hrun : m₀.replay inputs = some m) :
    ∃ os, Adds m₀ m os ∧ ∀ o ∈ os, m₀.Gives inputs o := by
  induction inputs using List.reverseRecOn generalizing m with
  | nil =>
    cases hrun
    exact ⟨[], .nil rfl, nofun⟩
  | append_singleton before i ih =>
    obtain ⟨s, hbefore, haccept⟩ := replay_snoc_eq_some_iff.1 hrun
    obtain ⟨os, hos, hgiven⟩ := ih hbefore
    obtain ⟨ps, hps, hgiven'⟩ := adds_of_accept hbefore haccept
    refine ⟨os ++ ps, hos.append hps, ?_⟩
    intro o ho
    rcases List.mem_append.1 ho with ho | ho
    · exact (hgiven o ho).longer i
    · exact hgiven' o ho

/-- A log only grows. -/
theorem commits_prefix_of_replay (hrun : m.replay inputs = some n) : m.commits <+: n.commits := by
  obtain ⟨os, ⟨links, hlog, -⟩, -⟩ := adds_of_replay hrun
  exact ⟨links, hlog.symm⟩

/-! ## No repetition -/

/-- A witness that a run takes in has the place in the final log that its step says. -/
theorem link_of_takesIn {m : Machine} {before : List Input} (hinit : init c = .ok m₀)
    (hrun : m₀.replay inputs = some m) (h : m₀.TakesIn inputs before w) :
    w.vmid = c.vmid ∧ ∃ s prior, m₀.replay before = some s ∧ s.commits.length = w.step.toNat ∧
      m.commits[w.step.toNat]? = some ((Origin.witness w).link prior) := by
  obtain ⟨⟨after, rfl⟩, s, n, hs, heval, hnew⟩ := h
  obtain hsame | ⟨hlog, hstep, hvmid⟩ := adds_of_eval heval
  · exact absurd hsame hnew
  have hcount : s.commits.length = w.step.toNat := by
    rw [hstep, (chained_of_replay hinit hs).count]
  have hcvmid : s.vmid = c.vmid := by
    obtain ⟨paths, -, -, rfl⟩ := init_eq_ok hinit
    exact congrArg Prod.fst (fixed_of_replay hs)
  refine ⟨hvmid.trans hcvmid, s, s.head, hs, hcount, ?_⟩
  -- the link is the last one right after the witness, and what comes later only adds to the log
  have hgrown : n.commits <+: m.commits := by
    rw [replay_append, Option.bind_eq_some_iff] at hrun
    obtain ⟨n', hn', hrest⟩ := hrun
    obtain ⟨s', hs', haccept⟩ := replay_snoc_eq_some_iff.1 hn'
    cases hs.symm.trans hs'
    cases heval.symm.trans haccept
    exact commits_prefix_of_replay hrest
  obtain ⟨more, hmore⟩ := hgrown
  rw [← hmore, hlog, ← hcount, List.append_assoc, List.getElem?_append_right (Nat.le_refl _),
    Nat.sub_self]
  rfl

/-- Of two places where witnesses for one step are taken in, neither comes after the other. -/
theorem not_prefix_of_takesIn {a b : List Input} {v : Witness} (hinit : init c = .ok m₀)
    (hv : m₀.TakesIn inputs a v) (hw : m₀.TakesIn inputs b w) (hstep : v.step = w.step)
    (hrun : m₀.replay inputs = some m) : ¬ a ++ [.witness v] <+: b := by
  intro hbefore
  obtain ⟨-, s, -, hs, hcount, -⟩ := link_of_takesIn hinit hrun hw
  have htaken : m₀.TakesIn b a v := ⟨hbefore, hv.2⟩
  obtain ⟨-, -, prior, -, -, hlink⟩ := link_of_takesIn hinit hs htaken
  -- the first witness has filled the place that the second one wants
  obtain ⟨hplace, -⟩ := List.getElem?_eq_some_iff.1 hlink
  rw [hstep, ← hcount] at hplace
  exact Nat.lt_irrefl _ hplace

/-- Witnesses for one step are taken in at one place of a run only. -/
theorem eq_of_takesIn {a b : List Input} {v : Witness} (hinit : init c = .ok m₀)
    (hrun : m₀.replay inputs = some m) (hv : m₀.TakesIn inputs a v) (hw : m₀.TakesIn inputs b w)
    (hstep : v.step = w.step) : a = b ∧ v = w := by
  have hsame : a ++ [.witness v] = b ++ [.witness w] → a = b ∧ v = w := by
    intro h
    obtain ⟨hbefore, hlast⟩ := List.append_inj' h rfl
    rw [List.singleton_inj, Input.witness.injEq] at hlast
    exact ⟨hbefore, hlast⟩
  rcases List.prefix_or_prefix_of_prefix hv.1 hw.1 with h | h
  · rcases List.prefix_concat_iff.1 h with h | h
    · exact hsame h
    · exact absurd h (not_prefix_of_takesIn hinit hv hw hstep hrun)
  · rcases List.prefix_concat_iff.1 h with h | h
    · exact hsame h.symm
    · exact absurd h (not_prefix_of_takesIn hinit hw hv hstep.symm hrun)

/-- A log has one link for each step that it has got to. -/
theorem Chained.nodup_steps {genesis : Digest} (h : Chained genesis m) :
    (m.commits.map (·.step)).Nodup := by
  have hsteps := (gapFree_of_followLinks h.links).steps
  have hcount : (m.commits.map (·.step)).length < UInt64.size := by
    rw [List.length_map, ← h.count]
    exact m.step.toNat_lt_size
  rw [List.nodup_iff_injective_getElem]
  rintro ⟨i, hi⟩ ⟨j, hj⟩ hsame
  simp only [List.getElem_map, hsteps] at hsame
  have hplace := congrArg UInt64.toNat hsame
  rw [UInt64.toNat_ofNat_of_lt' (Nat.lt_trans hi hcount),
    UInt64.toNat_ofNat_of_lt' (Nat.lt_trans hj hcount)] at hplace
  exact Fin.ext hplace

/-- Origins of links that have a step each are hashed from bytes that all differ. -/
theorem nodup_preimages {links : List Commit} (hsteps : (links.map (·.step)).Nodup)
    (hlinks : List.Forall₂ (fun l (o : Origin) => ∃ prior, l = o.link prior) links os) :
    (os.map Origin.preimage).Nodup := by
  have hsame : links.map (·.step) = os.map Origin.step := by
    clear hsteps
    induction hlinks with
    | nil => rfl
    | cons hhead _ ih =>
      obtain ⟨prior, rfl⟩ := hhead
      rw [List.map_cons, List.map_cons, ih]
      rfl
  rw [hsame] at hsteps
  have hnodup : os.Nodup := List.Nodup.of_map _ hsteps
  apply hnodup.map_on
  intro o ho p hp h
  exact List.inj_on_of_nodup_map hsteps ho hp (Origin.step_of_preimage_eq h)

/-- A run takes nothing in twice. -/
structure Unrepeated (c : MachineConfig) (m₀ : Machine) (inputs : List Input) (m : Machine) :
    Prop where
  /-- Of all witnesses for one step at most one is taken in, and at one place of the run only. -/
  once : ∀ before before' v w, m₀.TakesIn inputs before v → m₀.TakesIn inputs before' w →
    v.step = w.step → before = before' ∧ v = w
  /-- A witness for another machine is never taken in. -/
  native : ∀ before w, m₀.TakesIn inputs before w → w.vmid = c.vmid
  /-- A witness that is taken in has its link at the place that its step says, with its step, its
  stamp and its identifier. -/
  noted : ∀ before w, m₀.TakesIn inputs before w →
    ∃ prior, m.commits[w.step.toNat]? = some ⟨w.step, w.stamp, w.id, prior⟩
  /-- Every link is that of a witness which the run takes in or of a scheduled task which fires, and
  what the links are digests of is different for all of them. -/
  origins : ∃ os : List Origin,
    List.Forall₂ (fun l (o : Origin) => ∃ prior, l = o.link prior) m.commits os ∧
      (∀ w, .witness w ∈ os → ∃ before, m₀.TakesIn inputs before w) ∧
      (∀ f, .firing f ∈ os → f.vmid = c.vmid ∧
        (toJson f).member? "method" = some (.str "schedule") ∧
        ∃ e ∈ c.schedule, f.action = e.action ∧ f.stamp = c.activeAt + e.stamp ∧
          e.path.admits f.path = true ∧ ∃ stop, .clock stop ∈ inputs ∧ f.stamp ≤ stop) ∧
      (os.map Origin.preimage).Nodup

/-- Whatever witnesses are given to a machine, stale, repeated, foreign or for the same step, and
however the clock is advanced in between, its run takes nothing in twice. -/
theorem unrepeated_of_replay (hinit : init c = .ok m₀) (hrun : m₀.replay inputs = some m) :
    Unrepeated c m₀ inputs m := by
  refine ⟨?once, ?native, ?noted, ?origins⟩
  case once =>
    intro before before' v w hv hw hstep
    exact eq_of_takesIn hinit hrun hv hw hstep
  case native =>
    intro before w h
    exact (link_of_takesIn hinit hrun h).1
  case noted =>
    intro before w h
    obtain ⟨-, s, prior, -, -, hlink⟩ := link_of_takesIn hinit hrun h
    exact ⟨prior, hlink⟩
  case origins =>
    have hchained := chained_of_replay hinit hrun
    obtain ⟨paths, -, -, hm₀⟩ := init_eq_ok hinit
    obtain ⟨os, ⟨links, hlog, hlinks⟩, hgiven⟩ := adds_of_replay hrun
    have hcommits : m.commits = links := by
      rw [hlog, hm₀]
      rfl
    rw [← hcommits] at hlinks
    refine ⟨os, hlinks, ?_, ?_, nodup_preimages hchained.nodup_steps hlinks⟩
    · intro w hw
      exact hgiven _ hw
    · intro f hf
      obtain ⟨stop, hstop, f, t, ⟨⟩, hvmid, ht, haction, hstamp, hdue, hadmits⟩ := hgiven _ hf
      rw [hm₀] at hvmid ht
      obtain ⟨e, he, rfl⟩ := mem_tasks ht
      exact ⟨hvmid, rfl, e, he, haction, hstamp, hadmits, stop, hstop, hstamp ▸ hdue⟩

/-! ### A release that is given twice -/

/-- The locked deposit's inputs, with the release given a second time. -/
def releasedTwice : List Input :=
  [.clock 560, .witness releaseWitness, .witness releaseWitness, .clock 600]

/-- The deposit before the release is first given, after it, and at the end. -/
def releasedTwiceRun : Option (Machine × Machine × Machine) := do
  let before ← lockedStart.replay [.clock 560]
  let after ← before.eval releaseWitness
  let last ← after.replay [.witness releaseWitness, .clock 600]
  return (before, after, last)

/-- The release is taken in where it is first given and not where it is given again. -/
theorem releasedTwice_unrepeated :
    ∃ m, lockedStart.replay releasedTwice = some m ∧ m.commits.length = 3 ∧
      lockedStart.TakesIn releasedTwice [.clock 560] releaseWitness ∧
        ¬ lockedStart.TakesIn releasedTwice [.clock 560, .witness releaseWitness]
          releaseWitness ∧ Unrepeated lockedDeposit lockedStart releasedTwice m := by
  have hruns : (releasedTwiceRun.any fun run =>
      decide (run.2.1.commits.length ≠ run.1.commits.length ∧ run.2.2.commits.length = 3)) =
        true := by
    decide +kernel
  obtain ⟨⟨before, after, m⟩, hrun, hlogs⟩ := Option.any_eq_true _ _ |>.1 hruns
  obtain ⟨hnew, hlength⟩ := of_decide_eq_true hlogs
  simp only [releasedTwiceRun, Option.bind_eq_bind, Option.bind_eq_some_iff, Option.pure_def,
    Option.some.injEq, Prod.mk.injEq] at hrun
  obtain ⟨before, hbefore, after, hafter, m, hlast, rfl, rfl, rfl⟩ := hrun
  have hm : lockedStart.replay ([.clock 560] ++
      .witness releaseWitness :: [.witness releaseWitness, .clock 600]) = some m := by
    have haccept : before.accept (.witness releaseWitness) = some after := hafter
    rw [replay_append, hbefore, Option.bind_some, replay_cons, haccept, Option.bind_some, hlast]
  have htaken : lockedStart.TakesIn releasedTwice [.clock 560] releaseWitness :=
    ⟨⟨[.witness releaseWitness, .clock 600], rfl⟩, _, _, hbefore, hafter,
      fun h => hnew (congrArg List.length h)⟩
  have hunrepeated := unrepeated_of_replay init_lockedDeposit hm
  refine ⟨m, hm, hlength, htaken, ?_, hunrepeated⟩
  intro hagain
  have hplaces := (hunrepeated.once _ _ _ _ htaken hagain rfl).1
  simp at hplaces

end Machine

end JointEscrow
