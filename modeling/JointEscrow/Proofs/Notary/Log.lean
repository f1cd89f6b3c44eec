import JointEscrow.Contract.Record
import JointEscrow.Proofs.Notary
import Mathlib.Data.List.Induction
import Mathlib.Data.List.Nodup

/-!
# What a log keeps

A log that starts empty and takes one call after the other holds each status once, in the order in
which the statuses were first accepted, each with the last proof that was accepted for it (`Keeps`).
Whatever a call does, it leaves everything before the last entry as it is
(`dropLast_prefix_submit`), so no later log takes back what an earlier one had settled. Updating a
log in its place and computing the updated log come to the same (`update_eq_submit`).
-/

namespace JointEscrow

namespace ProofLog

variable {σ : Type} [DecidableEq σ] {name : σ → String} {log front rest : ProofLog σ}
  {e first second last : ProofEntry σ} {acc : List (ProofEntry σ)} {s : σ}

/-! ## One call -/

/-- Where the first entry with a status stands in a log: nowhere, at the end, or before others. -/
inductive Place (s : σ) : ProofLog σ → Prop where
  | fresh {log : ProofLog σ} (hnew : ∀ x ∈ log, x.status ≠ s) : Place s log
  | latest {front : ProofLog σ} {last : ProofEntry σ} (hnew : ∀ x ∈ front, x.status ≠ s)
      (hlast : last.status = s) : Place s (front ++ [last])
  | earlier {front rest : ProofLog σ} {first second : ProofEntry σ}
      (hnew : ∀ x ∈ front, x.status ≠ s) (hfirst : first.status = s) :
      Place s (front ++ first :: second :: rest)

theorem place (log : ProofLog σ) (s : σ) : Place s log := by
  cases hfind : log.find? fun x => decide (x.status = s) with
  | none =>
    apply Place.fresh
    simpa using hfind
  | some first =>
    obtain ⟨hstatus, front, rest, rfl, hfront⟩ := List.find?_eq_some_iff_append.1 hfind
    have hfirst : first.status = s := of_decide_eq_true hstatus
    have hnew : ∀ x ∈ front, x.status ≠ s := by simpa using hfront
    cases rest with
    | nil => exact .latest hnew hfirst
    | cons second rest => exact .earlier hnew hfirst

theorem submit_of_fresh (hnew : ∀ x ∈ log, x.status ≠ e.status) :
    log.submit name e = (.ok (), log ++ [e]) := by
  have hindex : (log.findIdx? fun x => decide (x.status = e.status)) = none := by
    simpa using hnew
  unfold submit
  rw [hindex]

theorem findIdx?_of_first (hnew : ∀ x ∈ front, x.status ≠ s) (hfirst : first.status = s) :
    ((front ++ first :: rest).findIdx? fun x => decide (x.status = s)) = some front.length := by
  have hfront : (front.findIdx? fun x => decide (x.status = s)) = none := by
    simpa using hnew
  rw [List.findIdx?_append, hfront, List.findIdx?_cons, if_pos (decide_eq_true hfirst)]
  simp

theorem submit_of_latest (hnew : ∀ x ∈ front, x.status ≠ e.status)
    (hlast : last.status = e.status) :
    submit name (front ++ [last]) e = (.ok (), front ++ [e]) := by
  unfold submit
  rw [findIdx?_of_first hnew hlast]
  simp

theorem submit_of_earlier (hnew : ∀ x ∈ front, x.status ≠ e.status)
    (hfirst : first.status = e.status) :
    submit name (front ++ first :: second :: rest) e =
      (.error (.rewriteHistory (name e.status)), front ++ first :: second :: rest) := by
  unfold submit
  rw [findIdx?_of_first hnew hfirst]
  simp

/-- What is before the first entry with the status has no say in an update. -/
theorem update?_append (hnew : ∀ x ∈ front, x.status ≠ e.status) :
    update? (front ++ first :: rest) e = (update? (first :: rest) e).map (front ++ ·) := by
  induction front with
  | nil => simp
  | cons x front ih =>
    rw [List.forall_mem_cons] at hnew
    have hlong : front ++ first :: rest ≠ [] := by simp
    rw [List.cons_append, update?, if_neg hnew.1, ih hnew.2, Option.map_map]
    · rfl
    · exact hlong

/-- The updated log is what the call in place leaves, and is refused for the same cause. -/
theorem update_eq_submit (name : σ → String) (log : ProofLog σ) (e : ProofEntry σ) :
    log.update name e = (log.submit name e).1.map fun _ => (log.submit name e).2 := by
  unfold update
  cases place log e.status with
  | fresh hnew =>
    rw [update?_of_fresh hnew, submit_of_fresh hnew]
    rfl
  | latest hnew hlast =>
    rw [update?_append hnew, update?, if_pos hlast, submit_of_latest hnew hlast]
    rfl
  | earlier hnew hfirst =>
    rw [update?_append hnew, update?, if_pos hfirst, submit_of_earlier hnew hfirst]
    · rfl
    · simp

/-- Everything before the last entry is there after a call as well, and still before the last. -/
theorem dropLast_prefix_submit (name : σ → String) (log : ProofLog σ) (e : ProofEntry σ) :
    log.dropLast <+: (log.submit name e).2.dropLast := by
  cases place log e.status with
  | fresh hnew =>
    rw [submit_of_fresh hnew, List.dropLast_concat]
    exact List.dropLast_prefix log
  | latest hnew hlast =>
    simp [submit_of_latest hnew hlast]
  | earlier hnew hfirst =>
    simp [submit_of_earlier hnew hfirst]

/-! ## Calls one after the other -/

/-- The log after some calls, whatever each of them answered. -/
def submitAll (name : σ → String) (log : ProofLog σ) (es : List (ProofEntry σ)) : ProofLog σ :=
  es.foldl (fun l e => (l.submit name e).2) log

/-- The entries that were accepted among those of some calls, in the order of the calls. -/
def accepted (name : σ → String) : ProofLog σ → List (ProofEntry σ) → List (ProofEntry σ)
  | _, [] => []
  | log, e :: r =>
    match log.submit name e with
    | (.ok _, next) => e :: accepted name next r
    | (.error _, next) => accepted name next r

theorem submitAll_append (log : ProofLog σ) (es more : List (ProofEntry σ)) :
    submitAll name log (es ++ more) = submitAll name (submitAll name log es) more :=
  List.foldl_append

theorem accepted_append (log : ProofLog σ) (es more : List (ProofEntry σ)) :
    accepted name log (es ++ more) =
      accepted name log es ++ accepted name (submitAll name log es) more := by
  induction es generalizing log with
  | nil => rfl
  | cons e es ih =>
    have hrest : submitAll name log (e :: es) = submitAll name (log.submit name e).2 es := rfl
    rw [List.cons_append, accepted, accepted, hrest]
    obtain ⟨answer, next⟩ := log.submit name e
    cases answer with
    | error _ => exact ih next
    | ok _ => exact congrArg (e :: ·) (ih next)

theorem dropLast_prefix_submitAll (name : σ → String) (log : ProofLog σ)
    (es : List (ProofEntry σ)) : log.dropLast <+: (submitAll name log es).dropLast := by
  induction es generalizing log with
  | nil => exact List.prefix_refl _
  | cons e es ih => exact (dropLast_prefix_submit name log e).trans (ih _)

/-! ## What is kept -/

/-- The log tells the accepted entries: every status once, the one that was accepted first before
the others, and of each the last entry. -/
structure Keeps (log : ProofLog σ) (acc : List (ProofEntry σ)) : Prop where
  distinct : (log.map (·.status)).Nodup
  order : log.map (·.status) = (acc.map (·.status)).eraseDups
  newest : ∀ s, log.get? s = (acc.filter fun e => e.status = s).getLast?

theorem keeps_nil : Keeps ([] : ProofLog σ) [] :=
  ⟨List.nodup_nil, rfl, fun _ => rfl⟩

/-- Only a status that is not there yet takes a place in the order. -/
theorem eraseDups_snoc (l : List σ) (s : σ) :
    (l ++ [s]).eraseDups = if s ∈ l then l.eraseDups else l.eraseDups ++ [s] := by
  rw [List.eraseDups_append, List.cons_removeAll, List.nil_removeAll]
  by_cases hs : s ∈ l
  · simp [hs]
  · simp [hs, List.eraseDups_cons]

/-- An accepted entry is the newest with its status, and the other statuses keep theirs. -/
theorem getLast?_filter_snoc (acc : List (ProofEntry σ)) (e : ProofEntry σ) (s : σ) :
    ((acc ++ [e]).filter fun x => x.status = s).getLast? =
      if e.status = s then some e else (acc.filter fun x => x.status = s).getLast? := by
  rw [List.filter_append]
  by_cases hs : e.status = s
  · simp [hs]
  · simp [hs]

theorem get?_append (log more : ProofLog σ) (s : σ) :
    get? (log ++ more) s = (log.get? s).or (more.get? s) := List.find?_append

theorem get?_singleton (e : ProofEntry σ) (s : σ) :
    get? [e] s = if e.status = s then some e else none := by
  by_cases hs : e.status = s
  · simp [get?, hs]
  · simp [get?, hs]

theorem get?_of_fresh (hnew : ∀ x ∈ log, x.status ≠ s) : log.get? s = none := by
  unfold get?
  simpa using hnew

theorem Keeps.fresh (h : Keeps log acc) (hnew : ∀ x ∈ log, x.status ≠ e.status) :
    Keeps (log ++ [e]) (acc ++ [e]) := by
  have hlog : e.status ∉ log.map (·.status) := by
    intro hmem
    obtain ⟨x, hx, hstatus⟩ := List.mem_map.1 hmem
    exact hnew x hx hstatus
  have hacc : e.status ∉ acc.map (·.status) := by
    rwa [h.order, List.mem_eraseDups] at hlog
  refine ⟨?_, ?_, ?_⟩
  · rw [List.map_append]
    exact List.nodup_append_comm.1 (List.nodup_cons.2 ⟨hlog, h.distinct⟩)
  · rw [List.map_append, List.map_append, List.map_singleton, eraseDups_snoc, if_neg hacc, h.order]
  · intro s
    rw [get?_append, get?_singleton, getLast?_filter_snoc, ← h.newest]
    by_cases hs : e.status = s
    · subst hs
      simp [get?_of_fresh hnew]
    · simp [hs]

theorem Keeps.latest (h : Keeps (front ++ [last]) acc) (hnew : ∀ x ∈ front, x.status ≠ e.status)
    (hlast : last.status = e.status) : Keeps (front ++ [e]) (acc ++ [e]) := by
  have hsame : (front ++ [e]).map (·.status) = (front ++ [last]).map (·.status) := by
    rw [List.map_append, List.map_append, List.map_singleton, List.map_singleton, hlast]
  have hacc : e.status ∈ acc.map (·.status) := by
    rw [← List.mem_eraseDups, ← h.order, ← hsame]
    simp
  refine ⟨?_, ?_, ?_⟩
  · rw [hsame]
    exact h.distinct
  · rw [hsame, h.order, List.map_append, List.map_singleton, eraseDups_snoc, if_pos hacc]
  · intro s
    have hnewest := h.newest s
    rw [get?_append, get?_singleton, hlast] at hnewest
    rw [get?_append, get?_singleton, getLast?_filter_snoc, ← hnewest]
    by_cases hs : e.status = s
    · subst hs
      simp [get?_of_fresh hnew]
    · simp [hs]

/-- One more call, accepted or refused. -/
theorem Keeps.submit (h : Keeps log acc) (name : σ → String) (e : ProofEntry σ) :
    Keeps (log.submit name e).2 (acc ++ accepted name log [e]) := by
  unfold accepted accepted
  cases place log e.status with
  | fresh hnew =>
    rw [submit_of_fresh hnew]
    exact h.fresh hnew
  | latest hnew hlast =>
    rw [submit_of_latest hnew hlast]
    exact h.latest hnew hlast
  | earlier hnew hfirst =>
    rw [submit_of_earlier hnew hfirst, List.append_nil]
    exact h

theorem keeps_submitAll (name : σ → String) (es : List (ProofEntry σ)) :
    Keeps (submitAll name [] es) (accepted name [] es) := by
  induction es using List.reverseRecOn with
  | nil => exact keeps_nil
  | append_singleton es e ih =>
    rw [submitAll_append, accepted_append]
    exact ih.submit name e

/-- How a log takes one more call. It refuses to prove anew what is not its latest status, and stays
as it is then; computing the updated log comes to the same. -/
structure Answers (name : σ → String) (log : ProofLog σ) (e : ProofEntry σ) : Prop where
  refuses : (∃ err, (log.submit name e).1 = .error err) ↔
    (∃ x ∈ log, x.status = e.status) ∧ ∀ x, log.latest? = some x → x.status ≠ e.status
  unchanged : ∀ err, (log.submit name e).1 = .error err →
    err = .rewriteHistory (name e.status) ∧ (log.submit name e).2 = log
  computed : log.update name e = (log.submit name e).1.map fun _ => (log.submit name e).2

/-- With each status there once, the first entry with a status is the last one only if it is the
latest. -/
theorem answers_of_distinct (hdistinct : (log.map (·.status)).Nodup) (name : σ → String)
    (e : ProofEntry σ) : Answers name log e := by
  refine ⟨?_, ?_, update_eq_submit name log e⟩
  · cases place log e.status with
    | fresh hnew =>
      rw [submit_of_fresh hnew]
      constructor
      · rintro ⟨_, ⟨⟩⟩
      · rintro ⟨⟨x, hx, hstatus⟩, -⟩
        exact absurd hstatus (hnew x hx)
    | latest hnew hlast =>
      rw [submit_of_latest hnew hlast]
      constructor
      · rintro ⟨_, ⟨⟩⟩
      · rintro ⟨-, hother⟩
        exact absurd hlast (hother _ List.getLast?_concat)
    | @earlier front rest first second hnew hfirst =>
      rw [submit_of_earlier hnew hfirst]
      refine ⟨fun _ => ⟨⟨first, by simp, hfirst⟩, ?_⟩, fun _ => ⟨_, rfl⟩⟩
      -- the latest entry comes after the first one, and no entry there has its status
      intro x hlatest hstatus
      have hlast : (second :: rest).getLast? = some x := by
        rw [← hlatest, latest?, List.getLast?_append_cons, List.getLast?_cons_cons]
      rw [List.map_append] at hdistinct
      obtain ⟨-, htail, -⟩ := List.nodup_append.1 hdistinct
      apply (List.nodup_cons.1 htail).1
      show first.status ∈ (second :: rest).map (·.status)
      rw [hfirst, ← hstatus]
      exact List.mem_map_of_mem (List.mem_of_getLast? hlast)
  · intro err herr
    cases place log e.status with
    | fresh hnew =>
      rw [submit_of_fresh hnew] at herr
      cases herr
    | latest hnew hlast =>
      rw [submit_of_latest hnew hlast] at herr
      cases herr
    | earlier hnew hfirst =>
      rw [submit_of_earlier hnew hfirst] at herr ⊢
      cases herr
      exact ⟨rfl, rfl⟩

/-- After any calls on an empty log, refused ones among them, the log keeps the accepted entries and
answers the next call accordingly, and what it holds before its last entry stays at the front of all
later logs. -/
theorem history_is_kept (name : σ → String) (es : List (ProofEntry σ)) :
    Keeps (submitAll name [] es) (accepted name [] es) ∧
      (∀ e, Answers name (submitAll name [] es) e) ∧
        ∀ more, (submitAll name [] es).dropLast <+: submitAll name [] (es ++ more) := by
  have hkeeps := keeps_submitAll name es
  refine ⟨hkeeps, answers_of_distinct hkeeps.distinct name, ?_⟩
  intro more
  rw [submitAll_append]
  exact (dropLast_prefix_submitAll name _ more).trans (List.dropLast_prefix _)

/-- A contract is published, published anew and activated. -/
def calledTwice : List (ProofEntry Status) :=
  [⟨.published, "aa"⟩, ⟨.published, "bb"⟩, ⟨.active, "cc"⟩]

/-- The second proof of the publication is kept, and the third one is refused without a trace. -/
theorem calledTwice_kept :
    submitAll Status.name [] calledTwice = [⟨.published, "bb"⟩, ⟨.active, "cc"⟩] ∧
      (submitAll Status.name [] calledTwice).get? .published =
          ((accepted Status.name [] calledTwice).filter fun e => e.status = .published).getLast? ∧
        (∃ err, (submit Status.name (submitAll Status.name [] calledTwice)
            ⟨.published, "dd"⟩).1 = .error err) ∧
          (submit Status.name (submitAll Status.name [] calledTwice) ⟨.published, "dd"⟩).2 =
              submitAll Status.name [] calledTwice ∧
            [⟨.published, "bb"⟩] <+:
              submitAll Status.name [] (calledTwice ++ [⟨.closed, "ee"⟩, ⟨.active, "ff"⟩]) := by
  obtain ⟨hkeeps, hanswers, hprefix⟩ := history_is_kept Status.name calledTwice
  have hanswer := hanswers ⟨.published, "dd"⟩
  have hrefused := hanswer.refuses.2 ⟨⟨⟨.published, "bb"⟩, by decide, rfl⟩, by
    intro x hx
    cases hx
    decide⟩
  obtain ⟨err, herr⟩ := hrefused
  exact ⟨rfl, hkeeps.newest .published, ⟨err, herr⟩, (hanswer.unchanged err herr).2,
    hprefix [⟨.closed, "ee"⟩, ⟨.active, "ff"⟩]⟩

end ProofLog

end JointEscrow
