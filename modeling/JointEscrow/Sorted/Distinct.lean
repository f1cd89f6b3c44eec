/-!
# The first repeated element

`firstRepeat?` finds the first element of a list that occurred before; there is none exactly when
the elements are distinct (`firstRepeat?_eq_none_iff`).
-/

namespace JointEscrow

variable {α : Type} [DecidableEq α]

/-- The first element that is among `seen` or the elements before it. -/
def firstRepeatAfter? (seen : List α) : List α → Option α
  | [] => none
  | x :: r => if x ∈ seen then some x else firstRepeatAfter? (x :: seen) r

/-- The first element that equals an earlier one. -/
def firstRepeat? (l : List α) : Option α := firstRepeatAfter? [] l

theorem firstRepeatAfter?_eq_none_iff {seen l : List α} :
    firstRepeatAfter? seen l = none ↔ l.Nodup ∧ ∀ x ∈ l, x ∉ seen := by
  induction l generalizing seen with
  | nil => simp [firstRepeatAfter?]
  | cons x r ih =>
    rw [firstRepeatAfter?]
    split
    · next h => simp [h]
    · next h =>
      rw [ih, List.nodup_cons]
      constructor
      · rintro ⟨hnd, hr⟩
        refine ⟨⟨fun hx => ?_, hnd⟩, fun y hy => ?_⟩
        · exact hr x hx List.mem_cons_self
        · rcases List.mem_cons.1 hy with rfl | hy
          · exact h
          · exact fun hs => hr y hy (List.mem_cons_of_mem _ hs)
      · rintro ⟨⟨hx, hnd⟩, hall⟩
        refine ⟨hnd, fun y hy hs => ?_⟩
        rcases List.mem_cons.1 hs with rfl | hs
        · exact hx hy
        · exact hall y (List.mem_cons_of_mem _ hy) hs

theorem firstRepeat?_eq_none_iff {l : List α} : firstRepeat? l = none ↔ l.Nodup := by
  simp [firstRepeat?, firstRepeatAfter?_eq_none_iff]

end JointEscrow
