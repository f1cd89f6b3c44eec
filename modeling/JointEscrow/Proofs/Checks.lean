import JointEscrow.Terms.Validity
import Mathlib.Data.List.Forall2

/-!
# Chains of checks

An operation that checks one condition after the other succeeds exactly when every single check
does. The lemmas here turn such a chain into the conjunction of its conditions, so that no proof
about an operation has to follow its error branches.
-/

namespace JointEscrow

section Chains

variable {ε ε' α β : Type}

theorem bind_eq_ok_iff {x : Except ε α} {f : α → Except ε β} {b : β} :
    (x >>= f) = .ok b ↔ ∃ a, x = .ok a ∧ f a = .ok b := by
  cases x with
  | error e => simp [bind, Except.bind]
  | ok a => simp [bind, Except.bind]

/-- The form of `bind_eq_ok_iff` for a check, which gives nothing but its success. -/
theorem check_bind_eq_ok_iff {x : Except ε Unit} {f : Unit → Except ε β} {b : β} :
    (x >>= f) = .ok b ↔ x = .ok () ∧ f () = .ok b := by
  rw [bind_eq_ok_iff]
  constructor
  · rintro ⟨⟨⟩, h⟩
    exact h
  · intro h
    exact ⟨(), h⟩

theorem bind_eq_error_iff {x : Except ε α} {f : α → Except ε β} {e : ε} :
    (x >>= f) = .error e ↔ x = .error e ∨ ∃ a, x = .ok a ∧ f a = .error e := by
  cases x with
  | error e' => simp [bind, Except.bind]
  | ok a => simp [bind, Except.bind]

@[simp] theorem pure_eq_ok_iff {a b : α} : (pure a : Except ε α) = .ok b ↔ a = b := by
  simp [pure, Except.pure]

@[simp] theorem ensure_eq_ok_iff {ok : Bool} {e : ε} : ensure ok e = .ok () ↔ ok = true := by
  cases ok <;> simp [ensure]

@[simp] theorem mapError_eq_ok_iff {x : Except ε α} {f : ε → ε'} {a : α} :
    x.mapError f = .ok a ↔ x = .ok a := by
  cases x <;> simp [Except.mapError]

theorem toOption_eq_some_iff {x : Except ε α} {a : α} : x.toOption = some a ↔ x = .ok a := by
  cases x <;> simp [Except.toOption]

theorem forM_eq_ok_iff {f : α → Except ε Unit} {l : List α} :
    l.forM f = .ok () ↔ ∀ a ∈ l, f a = .ok () := by
  induction l with
  | nil => simp [List.forM]
  | cons a r ih =>
    rw [List.forM, check_bind_eq_ok_iff, ih]
    simp

theorem option_forM_eq_ok_iff {f : α → Except ε Unit} {o : Option α} :
    o.forM f = .ok () ↔ ∀ a, o = some a → f a = .ok () := by
  cases o <;> simp [Option.forM, pure, Except.pure]

/-- A list of results belongs to the list of inputs member by member. -/
theorem mapM_eq_ok_iff {f : α → Except ε β} {l : List α} {r : List β} :
    l.mapM f = .ok r ↔ List.Forall₂ (fun a b => f a = .ok b) l r := by
  induction l generalizing r with
  | nil => rw [List.mapM_nil, pure_eq_ok_iff, List.forall₂_nil_left_iff, eq_comm]
  | cons a l ih =>
    rw [List.mapM_cons]
    simp only [bind_eq_ok_iff, pure_eq_ok_iff, ih, List.forall₂_cons_left_iff]
    constructor
    · rintro ⟨b, hb, bs, hbs, rfl⟩
      exact ⟨b, bs, hb, hbs, rfl⟩
    · rintro ⟨b, bs, hb, hbs, rfl⟩
      exact ⟨b, hb, bs, hbs, rfl⟩

theorem exists_mapM_iff {f : α → Except ε β} {l : List α} :
    (∃ r, l.mapM f = .ok r) ↔ ∀ a ∈ l, ∃ b, f a = .ok b := by
  induction l with
  | nil => simp [pure, Except.pure]
  | cons a l ih =>
    rw [List.mapM_cons, List.forall_mem_cons, ← ih]
    simp only [bind_eq_ok_iff, pure_eq_ok_iff]
    constructor
    · rintro ⟨_, b, hb, bs, hbs, rfl⟩
      exact ⟨⟨b, hb⟩, bs, hbs⟩
    · rintro ⟨⟨b, hb⟩, bs, hbs⟩
      exact ⟨_, b, hb, bs, hbs, rfl⟩

theorem exists_left_of_forall₂ {R : α → β → Prop} {l : List α} {r : List β} {b : β}
    (h : List.Forall₂ R l r) (hb : b ∈ r) : ∃ a ∈ l, R a b := by
  induction h with
  | nil => cases hb
  | @cons a b' l r hhead _ ih =>
    rcases List.mem_cons.1 hb with rfl | hb
    · exact ⟨a, List.mem_cons_self, hhead⟩
    · obtain ⟨a', ha', hrelated⟩ := ih hb
      exact ⟨a', List.mem_cons_of_mem _ ha', hrelated⟩

theorem exists_of_mem_mapM {f : α → Except ε β} {l : List α} {r : List β} {b : β}
    (h : l.mapM f = .ok r) (hb : b ∈ r) : ∃ a ∈ l, f a = .ok b :=
  exists_left_of_forall₂ (R := fun a b => f a = .ok b) (mapM_eq_ok_iff.1 h) hb

theorem exists_mem_of_mem_mapM {f : α → Except ε β} {l : List α} {r : List β} {a : α}
    (h : l.mapM f = .ok r) (ha : a ∈ l) : ∃ b ∈ r, f a = .ok b := by
  have hflipped : List.Forall₂ (fun b a => f a = .ok b) r l := (mapM_eq_ok_iff.1 h).flip
  exact exists_left_of_forall₂ hflipped ha

/-- A list of computations fails with what the first failure in it is. -/
theorem mapM_eq_error_iff {f : α → Except ε β} {l : List α} {e : ε} :
    l.mapM f = .error e ↔ ∃ front a rest, l = front ++ a :: rest ∧
      (∀ x ∈ front, ∃ b, f x = .ok b) ∧ f a = .error e := by
  induction l with
  | nil => simp [pure, Except.pure]
  | cons x l ih =>
    rw [List.mapM_cons, bind_eq_error_iff]
    simp only [bind_eq_error_iff, ih]
    constructor
    · rintro (hx | ⟨b, hb, ⟨front, a, rest, rfl, hfront, ha⟩ | ⟨_, _, ⟨⟩⟩⟩)
      · exact ⟨[], x, l, rfl, by simp, hx⟩
      · exact ⟨x :: front, a, rest, rfl, List.forall_mem_cons.2 ⟨⟨b, hb⟩, hfront⟩, ha⟩
    · rintro ⟨front, a, rest, hl, hfront, ha⟩
      cases front with
      | nil =>
        cases hl
        exact .inl ha
      | cons y front =>
        cases hl
        obtain ⟨⟨b, hb⟩, hfront⟩ := List.forall_mem_cons.1 hfront
        exact .inr ⟨b, hb, .inl ⟨front, a, rest, rfl, hfront, ha⟩⟩

/-! ## Repetitions -/

/-- A check for repetitions goes on with each element among those seen before. -/
theorem nodup_fresh_cons_iff {f : α → β} {l : List α} {b : β} {seen : List β} :
    ((l.map f).Nodup ∧ ∀ a ∈ l, f a ∉ b :: seen) ↔
      (b :: l.map f).Nodup ∧ ∀ a ∈ l, f a ∉ seen := by
  simp only [List.nodup_cons, List.mem_cons, List.mem_map, not_or, not_exists, not_and]
  constructor
  · rintro ⟨hnodup, hfresh⟩
    exact ⟨⟨fun a ha => (hfresh a ha).1, hnodup⟩, fun a ha => (hfresh a ha).2⟩
  · rintro ⟨⟨hnew, hnodup⟩, hfresh⟩
    exact ⟨hnodup, fun a ha => ⟨hnew a ha, hfresh a ha⟩⟩

/-! ## Failures -/

/-- Whatever the computation fails with has a property. -/
def FailsBy (P : ε → Prop) (x : Except ε α) : Prop := ∀ e, x = .error e → P e

variable {P : ε → Prop} {x : Except ε α}

theorem failsBy_of_ok {a : α} (h : x = .ok a) : FailsBy P x := by
  intro e he
  rw [h] at he
  cases he

theorem failsBy_pure (a : α) : FailsBy P (pure a : Except ε α) := failsBy_of_ok rfl

theorem failsBy_error {e : ε} (h : P e) : FailsBy P (.error e : Except ε α) := by
  rintro _ ⟨⟩
  exact h

theorem failsBy_ensure {ok : Bool} {e : ε} (h : P e) : FailsBy P (ensure ok e) := by
  cases ok with
  | false => exact failsBy_error h
  | true => exact failsBy_of_ok rfl

/-- What comes after a step can rely on the success of the step. -/
theorem FailsBy.bind {f : α → Except ε β} (hx : FailsBy P x)
    (hf : ∀ a, x = .ok a → FailsBy P (f a)) : FailsBy P (x >>= f) := by
  intro e he
  rcases bind_eq_error_iff.1 he with hfailed | ⟨a, ha, hfailed⟩
  · exact hx e hfailed
  · exact hf a ha e hfailed

theorem FailsBy.check {ok : Bool} {e : ε} {f : Unit → Except ε β} (he : P e)
    (hf : ok = true → FailsBy P (f ())) : FailsBy P (ensure ok e >>= f) := by
  apply (failsBy_ensure he).bind
  intro _ hok
  exact hf (ensure_eq_ok_iff.1 hok)

theorem FailsBy.mapError {Q : ε' → Prop} {f : ε → ε'} (hx : FailsBy P x) (hf : ∀ e, P e → Q (f e)) :
    FailsBy Q (x.mapError f) := by
  cases x with
  | error e => exact failsBy_error (hf e (hx e rfl))
  | ok a => exact failsBy_of_ok rfl

end Chains

end JointEscrow
