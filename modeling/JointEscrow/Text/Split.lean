/-!
# Splitting a text at a separator

`pieces sep` cuts a character list at every `sep` and `join sep` puts the pieces back. Splitting
never loses a character (`join_pieces`), and pieces that do not contain the separator survive a
join (`pieces_join`).
-/

namespace JointEscrow.Text

/-- The runs between separators; `n` separators give `n + 1` pieces, some of them perhaps empty. -/
def pieces (sep : Char) : List Char → List (List Char)
  | [] => [[]]
  | c :: r =>
    if c = sep then [] :: pieces sep r
    else match pieces sep r with
      | [] => [[c]]
      | p :: ps => (c :: p) :: ps

/-- The pieces in order with one separator between neighbours. -/
def join (sep : Char) : List (List Char) → List Char
  | [] => []
  | [p] => p
  | p :: q :: r => p ++ sep :: join sep (q :: r)

theorem pieces_ne_nil (sep : Char) (s : List Char) : pieces sep s ≠ [] := by
  cases s with
  | nil => simp [pieces]
  | cons c r =>
    rw [pieces]
    split
    · simp
    · split <;> simp

theorem join_cons_cons (sep c : Char) (p : List Char) (ps : List (List Char)) :
    join sep ((c :: p) :: ps) = c :: join sep (p :: ps) := by
  cases ps <;> simp [join]

theorem join_pieces (sep : Char) (s : List Char) : join sep (pieces sep s) = s := by
  induction s with
  | nil => rfl
  | cons c r ih =>
    rw [pieces]
    split
    · next h =>
      subst h
      cases hp : pieces c r with
      | nil => exact absurd hp (pieces_ne_nil c r)
      | cons p ps => rw [hp] at ih; simp [join, ih]
    · cases hp : pieces sep r with
      | nil => exact absurd hp (pieces_ne_nil sep r)
      | cons p ps => rw [hp] at ih; simp [join_cons_cons, ih]

theorem pieces_of_not_mem {sep : Char} {p : List Char} (h : sep ∉ p) : pieces sep p = [p] := by
  induction p with
  | nil => rfl
  | cons c r ih =>
    simp only [List.mem_cons, not_or] at h
    rw [pieces, if_neg (Ne.symm h.1), ih h.2]

theorem pieces_append_cons {sep : Char} {p s : List Char} (h : sep ∉ p) :
    pieces sep (p ++ sep :: s) = p :: pieces sep s := by
  induction p with
  | nil => simp [pieces]
  | cons c r ih =>
    simp only [List.mem_cons, not_or] at h
    rw [List.cons_append, pieces, if_neg (Ne.symm h.1), ih h.2]

theorem pieces_join {sep : Char} {ps : List (List Char)} (hne : ps ≠ [])
    (h : ∀ p ∈ ps, sep ∉ p) : pieces sep (join sep ps) = ps := by
  induction ps with
  | nil => exact absurd rfl hne
  | cons p rest ih =>
    cases rest with
    | nil => simpa [join] using pieces_of_not_mem (h p (by simp))
    | cons q r =>
      rw [join, pieces_append_cons (h p (by simp)), ih (by simp)]
      intro x hx
      exact h x (List.mem_cons_of_mem _ hx)

def splitText (sep : Char) (s : String) : List String := (pieces sep s.toList).map String.ofList

/-- The texts in order with one separator between neighbours. -/
def joinTexts (sep : Char) (parts : List String) : String :=
  String.ofList (join sep (parts.map String.toList))

theorem joinTexts_splitText (sep : Char) (s : String) : joinTexts sep (splitText sep s) = s := by
  simp [joinTexts, splitText, Function.comp_def, join_pieces]

end JointEscrow.Text
