import JointEscrow.Proofs.Machine.Acceptance

/-!
# Signing together and one after the other

The signers of an accepted witness can put their names to it in any order, and they can as well
speak one after the other, in groups, each group with a witness of its own for the step that the
machine is then at. As long as the keys so far satisfy no program they only gather (`Underway`).
Once they do the path has moved, and no action can be repeated on the path that it has just moved,
so the groups that are left change nothing (`content_of_moved`). Either way the machine ends in the
state that the joint witness leads to, apart from its log (`batching_is_immaterial`).
-/

namespace JointEscrow

/-- No action can be repeated on a path that it has just moved. -/
theorem PathState.next?_of_next? {current goal : PathState} {action : Action}
    (h : current.next? action = some goal) : goal.next? action = none := by
  cases current <;> cases action <;> cases h <;> rfl

/-- One witness asks for what another one asks for, at whatever step, in the name of some signers.
-/
structure Witness.Echoes (v w : Witness) : Prop where
  vmid : v.vmid = w.vmid
  action : v.action = w.action
  path : v.path = w.path
  stamp : v.stamp = w.stamp
  endorsed : v.endorsements ≠ []
  signed : ∀ e ∈ v.endorsements, e.verifies v.id = true

theorem Witness.Echoes.method {v w : Witness} (_ : v.Echoes w) : v.method = w.method := by
  cases v.method
  cases w.method
  rfl

namespace Machine

variable {m n s p : Machine} {v w : Witness} {vs : List Witness} {current goal : PathState}
  {keys more all : SortedSet PublicKey}

/-! ## What stays when the log is left out -/

/-- A machine apart from its log and the refusal that it notes. -/
def content (m : Machine) : Machine :=
  { m with step := 0, head := .zero, commits := [], error := none }

/-- What a machine keeps while keys gather for an action. -/
def frame (m : Machine) : Machine := { m.content with updatedAt := 0, store := .empty }

theorem eq_of_frame (h : s.frame = m.frame) :
    s.vmid = m.vmid ∧ s.expiresAt = m.expiresAt ∧ s.paths = m.paths ∧ s.programs = m.programs ∧
      s.tasks = m.tasks ∧ s.closed = m.closed := by
  simp only [frame, content, Machine.mk.injEq] at h
  tauto

theorem content_congr (hframe : m.frame = n.frame) (hupdated : m.updatedAt = n.updatedAt)
    (hstore : m.store = n.store) : m.content = n.content := by
  calc m.content = { m.frame with updatedAt := m.updatedAt, store := m.store } := rfl
    _ = { n.frame with updatedAt := n.updatedAt, store := n.store } := by
      rw [hframe, hupdated, hstore]
    _ = n.content := rfl

theorem eq_of_content (h : p.content = n.content) :
    p = { n with step := p.step, head := p.head, commits := p.commits, error := p.error } := by
  calc p = { p.content with
          step := p.step, head := p.head, commits := p.commits, error := p.error } := rfl
    _ = { n.content with
          step := p.step, head := p.head, commits := p.commits, error := p.error } := by rw [h]
    _ = { n with step := p.step, head := p.head, commits := p.commits, error := p.error } := rfl

/-! ## Keys that gather -/

/-- `s` is `m` on its way to what `w` asks for: these keys have endorsed it so far, and beside the
log nothing else has changed. -/
structure Underway (m : Machine) (w : Witness) (keys : SortedSet PublicKey) (s : Machine) :
    Prop where
  frame : s.frame = m.frame
  notEarly : s.updatedAt ≤ w.stamp
  store : ∀ more, record s.store w.path w.action more = record m.store w.path w.action more
  keys : (s.endorsedBy? w.action w.path).getD .empty = keys

theorem underway_self (h : m.Admitted w current goal all) :
    Underway m w ((m.endorsedBy? w.action w.path).getD .empty) m :=
  ⟨rfl, h.notEarly, fun _ => rfl, rfl⟩

/-- Where the joint witness is admitted, a part of its signers are admitted too, as long as they
have not spoken yet. -/
theorem Underway.admitted (h : Underway m w keys s) (hadmitted : m.Admitted w current goal all)
    (hv : v.Echoes w) (hstep : v.step = s.step) (hdistinct : v.signers.Nodup)
    (hsub : ∀ k ∈ v.signers, k ∈ w.signers) (hfresh : ∀ k ∈ v.signers, k ∉ keys) :
    s.Admitted v current goal (v.signers.foldl .insert keys) := by
  obtain ⟨hvmid, hexpires, hpaths, hprograms, htasks, -⟩ := eq_of_frame h.frame
  have hstate : ∀ l, s.pathState? l = m.pathState? l := by
    intro l
    unfold pathState?
    rw [hpaths]
  obtain ⟨hpath, -, -⟩ := validate_eq_ok_iff.1 hadmitted.valid
  constructor
  case vmid => rw [hv.vmid, hadmitted.vmid, hvmid]
  case step => exact hstep
  case valid => exact validate_eq_ok_iff.2 ⟨hv.path ▸ hpath, hv.endorsed, hdistinct⟩
  case notEarly => exact hv.stamp ▸ h.notEarly
  case notLate =>
    rw [hv.stamp, hexpires]
    exact hadmitted.notLate
  case beforeTasks =>
    rw [hv.stamp, htasks]
    exact hadmitted.beforeTasks
  case state =>
    rw [hv.path, hstate]
    exact hadmitted.state
  case signed => exact hv.signed
  case granted =>
    rw [hprograms, hv.method, hv.action, hv.path]
    exact hadmitted.granted
  case permitted =>
    rw [hprograms, hv.method, hv.action, hv.path]
    intro k hk
    exact hadmitted.permitted k (hsub k hk)
  case admits =>
    rw [hv.action]
    exact hadmitted.admits
  case uncontested =>
    have hfree := hadmitted.uncontested
    rw [contestedBy?_eq_none_iff] at hfree ⊢
    simp only [hv.action, hv.path, hstate]
    exact hfree
  case collected =>
    rw [hv.action, hv.path, h.keys]
    exact addSigners_eq_ok_iff.2 ⟨hdistinct, hfresh, rfl⟩

/-- Enough keys have endorsed what a witness asks for. -/
def Enough (m : Machine) (w : Witness) (keys : SortedSet PublicKey) : Prop :=
  (Program.firstSatisfied m.programs w.method w.action w.path keys).isSome = true

theorem Enough.mono (h : m.Enough w keys) (hsub : ∀ k ∈ keys, k ∈ all) : m.Enough w all := by
  obtain ⟨p, hp, hgrants, henough⟩ := Program.firstSatisfied_isSome_iff.1 h
  exact Program.firstSatisfied_isSome_iff.2 ⟨p, hp, hgrants, Program.satisfied_mono hsub henough⟩

/-- How many have endorsed makes no difference to a path that has moved. -/
theorem committed_of_enough (hkeys : m.Enough w keys) (hmore : m.Enough w more) (step : UInt64) :
    m.committed w goal keys step = m.committed w goal more step := by
  unfold Enough at hkeys hmore
  unfold committed
  rw [if_pos hkeys, if_pos hmore]
  cases hcloses : m.closesAt w.path goal with
  | true => rw [settle_of_ends hcloses, settle_of_ends hcloses]
  | false => rw [settle_of_goes hcloses, settle_of_goes hcloses]

/-- A group on the way does what the joint witness of all that have spoken would do. -/
theorem Underway.content_committed (h : Underway m w keys s) (hv : v.Echoes w) (step : UInt64) :
    (s.committed v goal more step).content = (m.committed w goal more 0).content := by
  obtain ⟨-, -, hpaths, hprograms, -, -⟩ := eq_of_frame h.frame
  have hprogram : Program.firstSatisfied s.programs v.method v.action v.path more =
      Program.firstSatisfied m.programs w.method w.action w.path more := by
    rw [hprograms, hv.method, hv.action, hv.path]
  have hcloses : s.closesAt v.path goal = m.closesAt w.path goal := by
    unfold closesAt disputedOther?
    rw [hpaths, hv.path]
  have herase : s.store.erase v.path = m.store.erase w.path := by
    have hrecord := congrArg (·.erase w.path) (h.store more)
    unfold record at hrecord
    simp only [SortedMap.erase_insert] at hrecord
    rw [hv.path, hrecord]
  unfold committed
  rw [hprogram]
  split
  · -- a moved path is read off the paths, which are the same
    cases hends : m.closesAt w.path goal with
    | true =>
      rw [settle_of_ends (hcloses.trans hends), settle_of_ends hends]
      refine content_congr ?_ hv.stamp herase
      show { s.frame with
          paths := s.frame.paths.insert v.path goal, output := some v.path, closed := true,
          closedAt := some v.stamp } = _
      rw [h.frame, hv.path, hv.stamp]
      rfl
    | false =>
      rw [settle_of_goes (hcloses.trans hends), settle_of_goes hends]
      refine content_congr ?_ hv.stamp herase
      show { s.frame with paths := s.frame.paths.insert v.path goal } = _
      rw [h.frame, hv.path]
      rfl
  · refine content_congr h.frame hv.stamp ?_
    show record s.store v.path v.action more = record m.store w.path w.action more
    rw [hv.path, hv.action]
    exact h.store more

/-- As long as the keys are too few they wait in the store, and others can join them. -/
theorem underway_of_content (hs : s.content = (m.committed w goal keys 0).content)
    (hfew : ¬ m.Enough w keys) : Underway m w keys s := by
  have hcommitted : m.committed w goal keys 0 = m.accepting w keys 0 := if_neg hfew
  rw [hcommitted] at hs
  have hframe := congrArg frame hs
  have hupdated : s.updatedAt = w.stamp := congrArg Machine.updatedAt hs
  have hstore : s.store = record m.store w.path w.action keys := congrArg Machine.store hs
  refine ⟨hframe, ?_, ?_, ?_⟩
  · rw [hupdated]
    exact UInt64.le_refl _
  · intro more
    rw [hstore]
    unfold record
    rw [SortedMap.insert_insert, SortedMap.find?_insert, if_pos rfl, Option.getD_some,
      SortedMap.insert_insert]
  · have hkeys := endorsedBy?_accepting m w keys 0 w.action w.path
    rw [if_pos ⟨rfl, rfl⟩] at hkeys
    have hsame : s.endorsedBy? w.action w.path
        = (m.accepting w keys 0).endorsedBy? w.action w.path := by
      unfold endorsedBy?
      rw [hstore]
      rfl
    rw [hsame, hkeys]
    rfl

/-! ## One group after the other -/

theorem eval_of_admitted (hopen : m.closed = false) (h : m.Admitted w current goal keys)
    (heval : m.eval w = some n) : ∃ step, n = m.committed w goal keys step := by
  have hcheck := check_eq_ok_iff.2 ⟨current, h⟩
  cases outcome_of_eval heval with
  | ignored hclosed => exact absurd (hopen.symm.trans hclosed) Bool.false_ne_true
  | refused _ hrefused =>
    rw [hcheck] at hrefused
    cases hrefused
  | @collected _ goal' keys' step _ hadmitted hstep hprogram =>
    obtain ⟨rfl, rfl⟩ := h.unique hadmitted
    refine ⟨step, (if_neg ?_).symm⟩
    rw [hprogram]
    exact Bool.false_ne_true
  | @authorized _ goal' keys' step q _ hadmitted hstep hprogram =>
    obtain ⟨rfl, rfl⟩ := h.unique hadmitted
    refine ⟨step, (if_pos ?_).symm⟩
    rw [hprogram]
    rfl

/-- The first groups, up to the one that moves the path. -/
theorem content_of_underway (h : Underway m w keys s) (hopen : m.closed = false)
    (hadmitted : m.Admitted w current goal all) (hv : v.Echoes w) (hstep : v.step = s.step)
    (hdistinct : v.signers.Nodup) (hsub : ∀ k ∈ v.signers, k ∈ w.signers)
    (hfresh : ∀ k ∈ v.signers, k ∉ keys) (heval : s.eval v = some n) :
    n.content = (m.committed w goal (v.signers.foldl .insert keys) 0).content := by
  have hsopen : s.closed = false := (eq_of_frame h.frame).2.2.2.2.2.trans hopen
  obtain ⟨step, rfl⟩ :=
    eval_of_admitted hsopen (h.admitted hadmitted hv hstep hdistinct hsub hfresh) heval
  exact h.content_committed hv step

/-- The groups that come after the path has moved change nothing but the noted refusal. -/
theorem content_of_moved (hs : s.content = (m.committed w goal keys 0).content)
    (henough : m.Enough w keys) (hnext : current.next? w.action = some goal) (hv : v.Echoes w)
    (heval : s.eval v = some n) : n.content = s.content := by
  have hcommitted : m.committed w goal keys 0 = (m.accepting w keys 0).settle w.path goal w.stamp :=
    if_pos henough
  have hmoved : s.pathState? w.path = some goal := by
    have hstate := pathState?_settle (m.accepting w keys 0) w.path w.path goal w.stamp
    rw [if_pos rfl] at hstate
    rw [hcommitted] at hs
    have hpaths : s.paths = ((m.accepting w keys 0).settle w.path goal w.stamp).paths :=
      (eq_of_frame (congrArg frame hs)).2.2.1
    unfold pathState? at hstate ⊢
    rw [hpaths, hstate]
  -- a witness that is admitted would have to move the path once more
  have hrefuses : ∀ {current' goal' keys'}, ¬ s.Admitted v current' goal' keys' := by
    intro current' goal' keys' hadmitted
    have hstate := hadmitted.state
    have hadmits := hadmitted.admits
    rw [hv.path, hmoved] at hstate
    obtain rfl := Option.some.inj hstate
    rw [hv.action, PathState.next?_of_next? hnext] at hadmits
    cases hadmits
  cases outcome_of_eval heval with
  | ignored hclosed => rfl
  | refused hopen hcheck => rfl
  | collected hopen hadmitted hstep hprogram => exact absurd hadmitted hrefuses
  | authorized hopen hadmitted hstep hprogram => exact absurd hadmitted hrefuses

/-- Each witness is built for the step that the machine is at when its turn comes. -/
def InTurn (m : Machine) (vs : List Witness) : Prop :=
  ∀ before v after, vs = before ++ v :: after →
    ∀ s, m.replay (before.map .witness) = some s → v.step = s.step

theorem inTurn_nil : m.InTurn [] := by
  intro before v after h
  cases before <;> cases h

theorem inTurn_cons : m.InTurn (v :: vs) ↔
    v.step = m.step ∧ ∀ s, m.eval v = some s → s.InTurn vs := by
  constructor
  · intro h
    refine ⟨h [] v vs rfl m rfl, ?_⟩
    intro s heval before u after hvs t hrun
    refine h (v :: before) u after (by rw [hvs]; rfl) t ?_
    rw [List.map_cons, replay_cons]
    show (m.eval v).bind _ = _
    rw [heval]
    exact hrun
  · rintro ⟨hstep, hrest⟩ before u after hvs s hrun
    cases before with
    | nil =>
      cases hvs
      cases hrun
      exact hstep
    | cons a r =>
      cases hvs
      rw [List.map_cons, replay_cons] at hrun
      obtain ⟨t, heval, hrun⟩ := Option.bind_eq_some_iff.1 hrun
      exact hrest t heval r u after rfl s hrun

/-- The groups that are left after some have spoken. -/
theorem content_of_replay (hopen : m.closed = false) (hadmitted : m.Admitted w current goal all)
    (hs : s.content = (m.committed w goal keys 0).content) (hparts : ∀ v ∈ vs, v.Echoes w)
    (hturn : s.InTurn vs) (hdistinct : (vs.flatMap Witness.signers).Nodup)
    (hsub : ∀ k ∈ vs.flatMap Witness.signers, k ∈ w.signers)
    (hfresh : ∀ k ∈ vs.flatMap Witness.signers, k ∉ keys)
    (hrun : s.replay (vs.map .witness) = some p) :
    p.content =
      (m.committed w goal ((vs.flatMap Witness.signers).foldl .insert keys) 0).content := by
  -- the induction is on the groups, and the keys so far grow with each of them
  induction vs generalizing s keys with
  | nil =>
    cases hrun
    exact hs
  | cons v r ih =>
    rw [List.map_cons, replay_cons] at hrun
    obtain ⟨t, heval, hrun⟩ := Option.bind_eq_some_iff.1 hrun
    obtain ⟨hstep, hlater⟩ := inTurn_cons.1 hturn
    rw [List.flatMap_cons] at hdistinct hsub hfresh ⊢
    obtain ⟨hv, hr, hapart⟩ := List.nodup_append.1 hdistinct
    have hecho := hparts v List.mem_cons_self
    have ht : t.content = (m.committed w goal (v.signers.foldl .insert keys) 0).content := by
      by_cases henough : m.Enough w keys
      · rw [content_of_moved hs henough hadmitted.admits hecho heval, hs]
        have hmore : m.Enough w (v.signers.foldl .insert keys) :=
          henough.mono fun k hk => SortedSet.mem_foldl_insert.2 (.inl hk)
        rw [committed_of_enough henough hmore]
      · exact content_of_underway (underway_of_content hs henough) hopen hadmitted hecho hstep hv
          (fun k hk => hsub k (List.mem_append_left _ hk))
          (fun k hk => hfresh k (List.mem_append_left _ hk)) heval
    rw [List.foldl_append]
    refine ih ht (fun u hu => hparts u (List.mem_cons_of_mem _ hu)) (hlater t heval) hr
      (fun k hk => hsub k (List.mem_append_right _ hk)) ?_ hrun
    intro k hk hgathered
    rcases SortedSet.mem_foldl_insert.1 hgathered with hbefore | hspoken
    · exact hfresh k (List.mem_append_right _ hk) hbefore
    · exact hapart k hspoken k hk rfl

theorem exists_replay_witnesses (hroom : m.step.toNat + vs.length < 2 ^ 64) :
    ∃ n, m.replay (vs.map .witness) = some n := by
  induction vs generalizing m with
  | nil => exact ⟨m, rfl⟩
  | cons v r ih =>
    rw [List.length_cons] at hroom
    obtain ⟨s, heval, hstep⟩ := exists_eval (m := m) (by omega) v
    obtain ⟨n, hn⟩ := ih (m := s) (by omega)
    refine ⟨n, ?_⟩
    rw [List.map_cons, replay_cons]
    show (m.eval v).bind _ = _
    rw [heval]
    exact hn

/-! ## Any order, any groups -/

/-- The signers of a witness speak in groups instead: each group has a witness of its own for what
the joint one asks for, validly signed and in turn, and together they are the same signers. -/
structure Divides (m : Machine) (w : Witness) (vs : List Witness) : Prop where
  parts : ∀ v ∈ vs, v.Echoes w
  signers : (vs.flatMap Witness.signers).Perm w.signers
  inTurn : m.InTurn vs

theorem Divides.content_eq {step : UInt64} (h : Divides m w vs) (hopen : m.closed = false)
    (hadmitted : m.Admitted w current goal all)
    (hrun : m.replay (vs.map .witness) = some p) :
    p.content = (m.committed w goal all step).content := by
  obtain ⟨-, hendorsed, hdistinct⟩ := validate_eq_ok_iff.1 hadmitted.valid
  obtain ⟨-, hfresh, -⟩ := addSigners_eq_ok_iff.1 hadmitted.collected
  have hspoken := h.signers.nodup_iff.2 hdistinct
  have hself := underway_self hadmitted
  cases vs with
  | nil =>
    -- somebody has signed, so there is a first group
    have hnone := h.signers.symm.eq_nil
    exact absurd (List.map_eq_nil_iff.1 hnone) hendorsed
  | cons v r =>
    rw [List.map_cons, replay_cons] at hrun
    obtain ⟨t, heval, hrun⟩ := Option.bind_eq_some_iff.1 hrun
    obtain ⟨hstep, hlater⟩ := inTurn_cons.1 h.inTurn
    have hperm := h.signers
    rw [List.flatMap_cons] at hspoken hperm
    obtain ⟨hv, hr, hapart⟩ := List.nodup_append.1 hspoken
    have hsub : ∀ k ∈ v.signers ++ r.flatMap Witness.signers, k ∈ w.signers :=
      fun k hk => hperm.mem_iff.1 hk
    have ht := content_of_underway hself hopen hadmitted (h.parts v List.mem_cons_self) hstep hv
      (fun k hk => hsub k (List.mem_append_left _ hk))
      (fun k hk => hfresh k (hsub k (List.mem_append_left _ hk))) heval
    have hp := content_of_replay hopen hadmitted ht
      (fun u hu => h.parts u (List.mem_cons_of_mem _ hu)) (hlater t heval) hr
      (fun k hk => hsub k (List.mem_append_right _ hk)) (by
        intro k hk hgathered
        rcases SortedSet.mem_foldl_insert.1 hgathered with hbefore | hfirst
        · exact hfresh k (hsub k (List.mem_append_right _ hk)) hbefore
        · exact hapart k hfirst k hk rfl) hrun
    have hall : (r.flatMap Witness.signers).foldl .insert
        (v.signers.foldl .insert ((m.endorsedBy? w.action w.path).getD .empty)) = all := by
      rw [hadmitted.keys_eq, ← List.foldl_append]
      exact SortedSet.foldl_insert_perm hperm _
    rw [hp, hall]
    exact (hself.content_committed ⟨rfl, rfl, rfl, rfl, hendorsed, hadmitted.signed⟩ step).symm

/-- However the signers of an accepted witness put their names to it, the machine is the same. In
another order on the same witness they lead to the same state as a whole. Divided into groups that
speak one after the other they lead to a state that differs in its log and in the noted refusal
only; and they lead to one as long as the counter has room for the groups. -/
theorem batching_is_immaterial (hopen : m.closed = false) (happly : m.apply w = .ok n) :
    (∀ es, es.Perm w.endorsements → m.apply { w with endorsements := es } = .ok n) ∧
      ∀ vs, Divides m w vs →
        (∀ p, m.replay (vs.map .witness) = some p →
          p = { n with step := p.step, head := p.head, commits := p.commits, error := p.error }) ∧
        (m.step.toNat + vs.length < 2 ^ 64 → ∃ p, m.replay (vs.map .witness) = some p) := by
  obtain ⟨current, goal, keys, step, hadmitted, hstep, rfl⟩ := (apply_eq_ok_iff hopen).1 happly
  constructor
  · intro es hperm
    have hsigners : ({ w with endorsements := es } : Witness).signers.Perm w.signers :=
      hperm.map _
    obtain ⟨hpath, hendorsed, hdistinct⟩ := validate_eq_ok_iff.1 hadmitted.valid
    obtain ⟨-, hfresh, -⟩ := addSigners_eq_ok_iff.1 hadmitted.collected
    have hvalid : ({ w with endorsements := es } : Witness).validate = .ok () := by
      refine validate_eq_ok_iff.2 ⟨hpath, ?_, hsigners.nodup_iff.2 hdistinct⟩
      rintro rfl
      exact hendorsed hperm.symm.eq_nil
    have hkeys : ({ w with endorsements := es } : Witness).signers.foldl .insert
        ((m.endorsedBy? w.action w.path).getD .empty) = keys := by
      rw [hadmitted.keys_eq]
      exact SortedSet.foldl_insert_perm hsigners _
    have hreordered : m.Admitted { w with endorsements := es } current goal keys :=
      { hadmitted with
        valid := hvalid
        signed := fun e he => hadmitted.signed e (hperm.mem_iff.1 he)
        permitted := fun k hk => hadmitted.permitted k (hsigners.mem_iff.1 hk)
        collected := addSigners_eq_ok_iff.2 ⟨hsigners.nodup_iff.2 hdistinct,
          fun k hk => hfresh k (hsigners.mem_iff.1 hk), hkeys.symm⟩ }
    exact (apply_eq_ok_iff hopen).2 ⟨current, goal, keys, step, hreordered, hstep, rfl⟩
  · intro vs hdivides
    refine ⟨fun p hrun => eq_of_content (hdivides.content_eq hopen hadmitted hrun), ?_⟩
    exact exists_replay_witnesses

/-- A deposit that its buyer or its seller can lock. -/
def lockableDeposit : MachineConfig :=
  { jointDeposit with
    programs := [⟨.endorse, .tokens ["lock"], .tokens ["deposit"], 1, [buyerKey, sellerKey]⟩] }

/-- The seller's name to a lock of the deposit. -/
def sellerLock : Witness where
  vmid := .zero
  method := .endorse
  action := .lock
  path := "deposit"
  stamp := 510
  step := 0
  endorsements := [⟨sellerKey, ⟨takeBytes 64
    (bigEndian 32 0x7ec2ed68e6c508497c453ad4e6a18bf5368147e313359648858c09e867a3cea3 ++
      bigEndian 32 0x775f36b58839a8588963eb02e1619490e9e378a6d99e5ba3621e25e42432f107)⟩⟩]

/-- Both names to the same lock, the buyer's first. -/
def jointLock : Witness :=
  { sellerLock with
    endorsements := ⟨buyerKey, ⟨takeBytes 64
      (bigEndian 32 0x05a323d2ed6e0e50e3298ab92ca46ad23f7b709ab674a01d4f4af75b688ef0e5 ++
        bigEndian 32 0xa36a2bbb174cea148f602164aca6c0b8b45b3984bf97e0cfc2c0ed61bf1baa0e)⟩⟩ ::
      sellerLock.endorsements }

/-- The buyer's name to a lock at the next step. -/
def buyerLock : Witness :=
  { sellerLock with
    step := 1
    endorsements := [⟨buyerKey, ⟨takeBytes 64
      (bigEndian 32 0x26938f463b836b1e6d8970d65d5ab0bdb5a3f235177139c85786bd900eb0deaf ++
        bigEndian 32 0xc731ecbfa2b752528b84284bd85948e372cf5be2f4ada61d6a2142bb8badd60e)⟩⟩] }

/-- The seller's word is enough to lock the deposit, and the buyer's, which comes after it and is
refused, leaves it as both together would have. -/
theorem lockableDeposit_batched :
    ∃ m n p, init lockableDeposit = .ok m ∧ m.apply jointLock = .ok n ∧
      n.pathState? "deposit" = some .locked ∧ Divides m jointLock [sellerLock, buyerLock] ∧
        m.replay [.witness sellerLock, .witness buyerLock] = some p ∧
          p = { n with
            step := p.step, head := p.head, commits := p.commits, error := p.error } := by
  have hrun : (((init lockableDeposit).toOption.bind fun m =>
      (m.apply jointLock).toOption.bind fun n => (m.eval sellerLock).map fun s => (m, n, s)).any
        fun r => decide (r.1.closed = false) && decide (r.1.step = 0) &&
          decide (r.2.2.step = 1) &&
            decide (r.2.1.pathState? "deposit" = some .locked)) = true := by decide +kernel
  have hbuyer : ∀ e ∈ buyerLock.endorsements, e.verifies buyerLock.id = true := by decide +kernel
  obtain ⟨⟨m, n, s⟩, hrun, hends⟩ := Option.any_eq_true _ _ |>.1 hrun
  simp only [Option.bind_eq_some_iff, Option.map_eq_some_iff, toOption_eq_some_iff,
    Prod.mk.injEq] at hrun
  obtain ⟨m', hinit, n', hn, s', hs, hm, hn', hs'⟩ := hrun
  subst hm hn' hs'
  simp only [Bool.and_eq_true, decide_eq_true_eq] at hends
  obtain ⟨⟨⟨hopen, hstep⟩, hnext⟩, hlocked⟩ := hends
  -- the seller has signed the same request alone and with the buyer
  obtain ⟨current, goal, keys, -, hadmitted, -, -⟩ := (apply_eq_ok_iff hopen).1 hn
  have hseller : ∀ e ∈ sellerLock.endorsements, e.verifies sellerLock.id = true :=
    fun e he => hadmitted.signed e (List.mem_cons_of_mem _ he)
  have hdivides : Divides m' jointLock [sellerLock, buyerLock] := by
    refine ⟨?_, List.Perm.swap _ _ _, inTurn_cons.2 ⟨hstep.symm, ?_⟩⟩
    · intro v hv
      rcases List.mem_cons.1 hv with rfl | hv
      · exact ⟨rfl, rfl, rfl, rfl, List.cons_ne_nil _ _, hseller⟩
      · obtain rfl := List.mem_singleton.1 hv
        exact ⟨rfl, rfl, rfl, rfl, List.cons_ne_nil _ _, hbuyer⟩
    · intro t ht
      obtain rfl := Option.some.inj (hs.symm.trans ht)
      exact inTurn_cons.2 ⟨hnext.symm, fun _ _ => inTurn_nil⟩
  obtain ⟨-, hgroups⟩ := batching_is_immaterial hopen hn
  obtain ⟨hsame, hexists⟩ := hgroups _ hdivides
  obtain ⟨p, hp⟩ := hexists (by rw [hstep]; decide)
  exact ⟨_, _, p, hinit, hn, hlocked, hdivides, hp, hsame p hp⟩

end Machine

end JointEscrow
