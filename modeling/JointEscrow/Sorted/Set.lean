import JointEscrow.Sorted.Key

/-!
# Sorted sets

A finite set is the strictly ascending list of its elements, so sets with the same elements are
equal and the elements come out in order. `mem_insert` and `mem_ofList` say what is in a set.
-/

namespace JointEscrow

/-- A finite set, in ascending order. -/
structure SortedSet (κ : Type) [LT κ] where
  elements : List κ
  sorted : elements.Pairwise (· < ·)
  deriving DecidableEq, Repr

namespace SortedSet

variable {κ : Type} [LT κ] [DecidableLT κ]

instance : Membership κ (SortedSet κ) := ⟨fun s k => k ∈ s.elements⟩

instance [DecidableEq κ] (k : κ) (s : SortedSet κ) : Decidable (k ∈ s) :=
  inferInstanceAs (Decidable (k ∈ s.elements))

/-- Ascending list with an element at its place. -/
def place (k : κ) : List κ → List κ
  | [] => [k]
  | k' :: r => if k < k' then k :: k' :: r else if k' < k then k' :: place k r else k' :: r

theorem mem_place [KeyOrder κ] {k x : κ} {l : List κ} : x ∈ place k l ↔ x = k ∨ x ∈ l := by
  induction l with
  | nil => simp [place]
  | cons k' r ih =>
    rw [place]
    split
    · simp
    · next hnlt =>
      split
      · simp only [List.mem_cons, ih]
        grind
      · next hngt =>
        have hk : k = k' := KeyOrder.connected _ _ hnlt hngt
        subst hk
        simp

theorem pairwise_place [KeyOrder κ] (k : κ) {l : List κ} (h : l.Pairwise (· < ·)) :
    (place k l).Pairwise (· < ·) := by
  induction l with
  | nil => simp [place]
  | cons k' r ih =>
    rw [List.pairwise_cons] at h
    rw [place]
    split
    · next hlt =>
      refine List.pairwise_cons.2 ⟨fun x hx => ?_, List.pairwise_cons.2 h⟩
      rcases List.mem_cons.1 hx with rfl | hx
      · exact hlt
      · exact KeyOrder.trans _ _ _ hlt (h.1 x hx)
    · split
      · next hgt =>
        refine List.pairwise_cons.2 ⟨fun x hx => ?_, ih h.2⟩
        rcases mem_place.1 hx with rfl | hx
        · exact hgt
        · exact h.1 x hx
      · exact List.pairwise_cons.2 h

def empty : SortedSet κ := ⟨[], .nil⟩

def insert [KeyOrder κ] (s : SortedSet κ) (k : κ) : SortedSet κ :=
  ⟨place k s.elements, pairwise_place k s.sorted⟩

def ofList [KeyOrder κ] (l : List κ) : SortedSet κ := l.foldl insert empty

variable [KeyOrder κ]

omit [DecidableLT κ] [KeyOrder κ] in
theorem mem_elements {s : SortedSet κ} {k : κ} : k ∈ s.elements ↔ k ∈ s := Iff.rfl

theorem mem_insert {s : SortedSet κ} {k x : κ} : x ∈ s.insert k ↔ x = k ∨ x ∈ s := mem_place

theorem mem_foldl_insert {l : List κ} {s : SortedSet κ} {x : κ} :
    x ∈ l.foldl insert s ↔ x ∈ s ∨ x ∈ l := by
  induction l generalizing s with
  | nil => simp
  | cons k r ih =>
    rw [List.foldl_cons, ih, mem_insert, List.mem_cons]
    grind

theorem mem_ofList {l : List κ} {x : κ} : x ∈ ofList l ↔ x ∈ l := by
  have hempty : ¬ x ∈ (empty : SortedSet κ) := List.not_mem_nil
  simp [ofList, mem_foldl_insert, hempty]

end SortedSet

end JointEscrow
