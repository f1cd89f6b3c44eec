import JointEscrow.Proofs.Machine.Authorization
import JointEscrow.Proofs.Machine.Disputes

/-!
# Pending endorsements

What the store of a machine holds is pending in earnest (`Awaits`): the path still admits the
action, some permitted key has endorsed it, and all that have are not enough for any program. A
satisfied program and a scheduled task both move a path, and whatever moves a path takes its
endorsements out of the store, and no others. So no key set is left behind that an earlier state of
the path has collected (`pending_of_replay`).
-/

namespace JointEscrow

namespace Machine

variable {m₀ m n : Machine} {w : Witness} {inputs : List Input} {l path : String} {action : Action}
  {keys : SortedSet PublicKey} {stop : UInt64}

/-! ## What is pending -/

/-- The keys wait for others to endorse the action on the path: the path admits it, there are some
keys, each is permitted by a program that grants the action, and no such program is satisfied. -/
structure Awaits (m : Machine) (path : String) (action : Action) (keys : SortedSet PublicKey) :
    Prop where
  admitted : ∃ state, m.pathState? path = some state ∧ (state.next? action).isSome = true
  nonempty : keys.elements ≠ []
  permitted : ∀ k ∈ keys,
    ∃ p ∈ Program.granting m.programs .endorse action path, p.permits k = true
  unsatisfied : Program.firstSatisfied m.programs .endorse action path keys = none

theorem Awaits.congr (h : m.Awaits path action keys)
    (hstate : n.pathState? path = m.pathState? path) (hprograms : n.programs = m.programs) :
    n.Awaits path action keys := by
  constructor
  · rw [hstate]
    exact h.admitted
  · exact h.nonempty
  · rw [hprograms]
    exact h.permitted
  · rw [hprograms]
    exact h.unsatisfied

/-- All that the store holds for the path is pending. -/
structure PendingAt (m : Machine) (path : String) : Prop where
  filled : ∀ pending, m.store.find? path = some pending → pending.entries ≠ []
  awaits : ∀ action keys, m.endorsedBy? action path = some keys → m.Awaits path action keys

theorem pendingAt_of_gone (h : m.store.find? l = none) : m.PendingAt l := by
  constructor
  · intro pending hpending
    rw [h] at hpending
    cases hpending
  · intro action keys hkeys
    rw [endorsedBy?, h] at hkeys
    cases hkeys

theorem PendingAt.congr (h : m.PendingAt l) (hstate : n.pathState? l = m.pathState? l)
    (hstore : n.store.find? l = m.store.find? l) (hprograms : n.programs = m.programs) :
    n.PendingAt l := by
  constructor
  · intro pending hpending
    rw [hstore] at hpending
    exact h.filled pending hpending
  · intro action keys hkeys
    rw [endorsedBy?, hstore] at hkeys
    exact (h.awaits action keys hkeys).congr hstate hprograms

/-! ## Witnesses and the clock -/

theorem endorsements_ne_nil_of_validate (h : w.validate = .ok ()) : w.endorsements ≠ [] := by
  intro hnil
  unfold Witness.validate at h
  split at h
  · cases h
  · rw [hnil] at h
    cases h

/-- The keys of an admitted witness are pending when they satisfy no program, if those were that the
store held before. -/
theorem Awaits.of_admitted {current goal : PathState} (hadmitted : m.Admitted w current goal keys)
    (hpending : m.PendingAt w.path)
    (hprogram : Program.firstSatisfied m.programs w.method w.action w.path keys = none) :
    m.Awaits w.path w.action keys := by
  have hmethod : w.method = .endorse := by
    cases w.method
    rfl
  have hpermitted := hadmitted.permitted
  rw [hmethod] at hprogram hpermitted
  refine ⟨⟨current, hadmitted.state, ?_⟩, ?_, ?_, hprogram⟩
  · rw [hadmitted.admits]
    rfl
  · obtain ⟨e, r, hsigned⟩ := List.exists_cons_of_ne_nil
      (endorsements_ne_nil_of_validate hadmitted.valid)
    have hsigner : e.pubkey ∈ w.signers := by
      unfold Witness.signers
      rw [hsigned]
      exact List.mem_cons_self
    have hmem : e.pubkey ∈ keys := (mem_of_addSigners hadmitted.collected).2 (.inr hsigner)
    exact List.ne_nil_of_mem hmem
  · intro k hk
    rcases mem_keys_of_admitted hadmitted hk with hsigner | ⟨old, hold, hk⟩
    · exact hpermitted k hsigner
    · exact (hpending.awaits _ old hold).permitted k hk

theorem find?_store_accepting (m : Machine) (w : Witness) (keys : SortedSet PublicKey)
    (step : UInt64) (l : String) : (m.accepting w keys step).store.find? l = if l = w.path then
      some (((m.store.find? w.path).getD .empty).insert w.action keys) else m.store.find? l :=
  SortedMap.find?_insert _ _ _ _

/-- New keys wait beside what else is pending on their path. -/
theorem pendingAt_accepting {current goal : PathState} {step : UInt64} (h : ∀ l, m.PendingAt l)
    (hadmitted : m.Admitted w current goal keys)
    (hprogram : Program.firstSatisfied m.programs w.method w.action w.path keys = none)
    (l : String) : (m.accepting w keys step).PendingAt l := by
  have hstore := find?_store_accepting m w keys step l
  by_cases hl : l = w.path
  · subst hl
    rw [if_pos rfl] at hstore
    constructor
    · intro pending hpending
      rw [hstore] at hpending
      cases hpending
      exact SortedMap.put_ne_nil _ _ _
    · intro action all hall
      rw [endorsedBy?_accepting] at hall
      by_cases haction : action = w.action
      · subst haction
        rw [if_pos ⟨rfl, rfl⟩] at hall
        cases hall
        exact (Awaits.of_admitted hadmitted (h _) hprogram).congr rfl rfl
      · rw [if_neg fun hboth => haction hboth.2] at hall
        exact ((h _).awaits action all hall).congr rfl rfl
  · rw [if_neg hl] at hstore
    exact (h l).congr rfl hstore rfl

/-- The path that is settled has nothing pending any more, and the others are left alone. -/
theorem pendingAt_settle {goal : PathState} {step : UInt64} (h : ∀ l, m.PendingAt l) (l : String) :
    ((m.accepting w keys step).settle w.path goal w.stamp).PendingAt l := by
  have hstore := store_settle (m.accepting w keys step) w.path l goal w.stamp
  have hstate := pathState?_settle (m.accepting w keys step) w.path l goal w.stamp
  by_cases hl : l = w.path
  · rw [if_pos hl] at hstore
    exact pendingAt_of_gone hstore
  · rw [if_neg hl] at hstate hstore
    have hother := find?_store_accepting m w keys step l
    rw [if_neg hl] at hother
    have hprograms : ((m.accepting w keys step).settle w.path goal w.stamp).programs
        = m.programs := by
      rw [settle_eq]
      rfl
    exact (h l).congr hstate (hstore.trans hother) hprograms

theorem pendingAt_of_eval (h : ∀ l, m.PendingAt l) (heval : m.eval w = some n) (l : String) :
    n.PendingAt l := by
  cases outcome_of_eval heval with
  | ignored hclosed => exact h l
  | refused hopen hcheck => exact (h l).congr rfl rfl rfl
  | collected hopen hadmitted hstep hprogram => exact pendingAt_accepting h hadmitted hprogram l
  | authorized hopen hadmitted hstep hprogram => exact pendingAt_settle h l

theorem pendingAt_of_run (h : ∀ l, m.PendingAt l) (hclock : m.run stop = some n) (l : String) :
    n.PendingAt l := by
  have hfixed := fixed_of_moves (moves_of_accept (i := .clock stop) hclock)
  have hprograms : n.programs = m.programs := congrArg (fun f => f.2.2.2.2) hfixed
  rcases run_path hclock l with ⟨hstate, hstore⟩ | ⟨hgone, -⟩
  · exact (h l).congr hstate hstore hprograms
  · exact pendingAt_of_gone hgone

theorem pendingAt_of_replay (hstart : m₀.store = .empty) (hrun : m₀.replay inputs = some m) :
    ∀ l, m.PendingAt l := by
  induction inputs using List.reverseRecOn generalizing m with
  | nil =>
    cases hrun
    intro l
    apply pendingAt_of_gone
    rw [hstart]
    rfl
  | append_singleton before i ih =>
    obtain ⟨s, hbefore, haccept⟩ := replay_snoc_eq_some_iff.1 hrun
    cases i with
    | witness w => exact pendingAt_of_eval (ih hbefore) haccept
    | clock stop => exact pendingAt_of_run (ih hbefore) haccept

/-! ## What a moved path takes with it -/

/-- Of all paths only this one has moved, and of all pending endorsements its own are gone. -/
structure MovesAlone (m n : Machine) (l : String) : Prop where
  others : ∀ l', l' ≠ l → n.pathState? l' = m.pathState? l'
  store : n.store = m.store.erase l

theorem movesAlone_of_eval (heval : m.eval w = some n)
    (hchange : n.pathState? l ≠ m.pathState? l) : MovesAlone m n l := by
  obtain ⟨hpath, -, -, -, -, -, -, -, hothers, -⟩ := eval_change heval hchange
  refine ⟨hothers, ?_⟩
  subst hpath
  cases outcome_of_eval heval with
  | ignored hclosed => exact absurd rfl hchange
  | refused hopen hcheck => exact absurd rfl hchange
  | collected hopen hadmitted hstep hprogram => exact absurd rfl hchange
  | authorized hopen hadmitted hstep hprogram =>
    rw [settle_eq]
    exact SortedMap.erase_insert _ _ _

theorem movesAlone_of_tick (h : Tick stop m n) (hchange : n.pathState? l ≠ m.pathState? l) :
    MovesAlone m n l := by
  cases h with
  | skipped hopen htasks hdue hspan htarget => exact absurd rfl hchange
  | @fired t r label goal step hopen htasks hdue hspan htarget hstep =>
    have hstate := fun l' => pathState?_settle (m.linked (m.firing t label).id t.due step) label l'
      goal t.due
    have hl : l = label := by
      by_contra hne
      have hsame := hstate l
      rw [if_neg hne] at hsame
      exact hchange hsame
    subst hl
    constructor
    · intro l' hne
      have hsame := hstate l'
      rwa [if_neg hne] at hsame
    · rw [settle_eq]
      rfl

/-- A run of the clock can move many paths. The endorsements of those are gone, and the others have
kept theirs. -/
theorem store_of_run (hclock : m.run stop = some n) (l : String) :
    n.store.find? l = if n.pathState? l = m.pathState? l then m.store.find? l else none := by
  rcases run_path hclock l with ⟨hstate, hstore⟩ | ⟨hgone, t, hfired⟩
  · rw [if_pos hstate, hstore]
  · have hmoved : n.pathState? l ≠ m.pathState? l := by
      obtain ⟨goal, hgoal, hafter⟩ := hfired.after
      rw [hfired.before, hafter]
      intro hsame
      exact ne_open_of_next? hgoal (Option.some.inj hsame)
    rw [if_neg hmoved, hgone]

/-! ## All states of a run -/

/-- Wherever a run leads, everything in the store is pending on a declared path, and no table in it
is empty. Whatever moves a path from there, a witness or a task that the clock fires, takes that
path's endorsements out of the store and leaves the others as they are. -/
theorem pending_of_replay {c : MachineConfig} (hinit : init c = .ok m₀)
    (hrun : m₀.replay inputs = some m) :
    (∀ path action keys, m.endorsedBy? action path = some keys →
      path ∈ c.pathnames ∧ m.Awaits path action keys) ∧
    (∀ path pending, m.store.find? path = some pending → pending.entries ≠ []) ∧
    (∀ w n l, m.eval w = some n → n.pathState? l ≠ m.pathState? l → MovesAlone m n l) ∧
    (∀ stop s n l, Ticks stop { m with error := none } s → Tick stop s n →
      n.pathState? l ≠ s.pathState? l → MovesAlone s n l) ∧
    ∀ stop n, m.run stop = some n → ∀ l,
      n.store.find? l = if n.pathState? l = m.pathState? l then m.store.find? l else none := by
  have hstart : m₀.store = .empty := by
    obtain ⟨paths, -, -, rfl⟩ := init_eq_ok hinit
    rfl
  have hpending := pendingAt_of_replay hstart hrun
  have hcoherent : Coherent c.pathnames m :=
    moves_keep (fun _ _ => Coherent.move) (moves_of_replay hrun) (coherent_of_init hinit)
  refine ⟨?_, fun path => (hpending path).filled, ?_, ?_, ?_⟩
  · intro path action keys hkeys
    have hawaits := (hpending path).awaits action keys hkeys
    obtain ⟨state, hstate, -⟩ := hawaits.admitted
    exact ⟨(hcoherent.labels path).1 (SortedMap.mem_keys_iff.2 ⟨state, hstate⟩), hawaits⟩
  · intro w n l heval hchange
    exact movesAlone_of_eval heval hchange
  · intro stop s n l _ htick hchange
    exact movesAlone_of_tick htick hchange
  · intro stop n hclock l
    exact store_of_run hclock l

/-- The word of the buyer waits for the seller's, until the clock disputes the deposit. -/
theorem jointDeposit_pending :
    ∃ m₀ m n, init jointDeposit = .ok m₀ ∧ m₀.replay [.witness buyerWitness] = some m ∧
      m.endorsedBy? .close "deposit" = some (SortedSet.empty.insert buyerKey) ∧
        m.Awaits "deposit" .close (SortedSet.empty.insert buyerKey) ∧
          m.run 1400 = some n ∧ n.pathState? "deposit" = some .disputed ∧
            n.store.find? "deposit" = none := by
  have hrun : (((init jointDeposit).toOption.bind fun m₀ =>
      (m₀.replay [.witness buyerWitness]).bind fun m => (m.run 1400).map fun n => (m₀, m, n)).any
        fun r => decide (r.2.1.endorsedBy? .close "deposit" =
            some (SortedSet.empty.insert buyerKey)) &&
          decide (r.2.1.pathState? "deposit" = some .open) &&
            decide (r.2.2.pathState? "deposit" = some .disputed)) = true := by decide +kernel
  obtain ⟨⟨m₀, m, n⟩, hrun, hends⟩ := Option.any_eq_true _ _ |>.1 hrun
  simp only [Option.bind_eq_some_iff, Option.map_eq_some_iff, toOption_eq_some_iff,
    Prod.mk.injEq] at hrun
  obtain ⟨_, hinit, _, hm, _, hclock, rfl, rfl, rfl⟩ := hrun
  simp only [Bool.and_eq_true, decide_eq_true_eq] at hends
  obtain ⟨⟨hkeys, hbefore⟩, hafter⟩ := hends
  obtain ⟨hpending, -, -, -, hmoved⟩ := pending_of_replay hinit hm
  refine ⟨_, _, _, hinit, hm, hkeys, (hpending _ _ _ hkeys).2, hclock, hafter, ?_⟩
  rw [hmoved _ _ hclock, if_neg]
  rw [hbefore, hafter]
  decide

end Machine

end JointEscrow
