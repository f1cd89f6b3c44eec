import JointEscrow.Sorted.Key

/-!
# Tables sorted by key

A finite table is the list of its entries in strictly ascending key order, so a table has one
written form and its entries come out in key order. `find?_insert` and `find?_erase` say what the
two updates do to every look-up.
-/

namespace JointEscrow

/-- A finite table with one value per key, in ascending key order. -/
structure SortedMap (κ α : Type) [LT κ] where
  entries : List (κ × α)
  sorted : entries.Pairwise fun x y => x.1 < y.1
  deriving DecidableEq, Repr

namespace SortedMap

variable {κ α : Type} [LT κ] [DecidableLT κ]

def lookup [DecidableEq κ] (k : κ) : List (κ × α) → Option α
  | [] => none
  | (k', a) :: r => if k = k' then some a else lookup k r

/-- Entry list with the key set to a value: in its place, or before the first larger key. -/
def put (k : κ) (a : α) : List (κ × α) → List (κ × α)
  | [] => [(k, a)]
  | (k', a') :: r =>
    if k < k' then (k, a) :: (k', a') :: r
    else if k' < k then (k', a') :: put k a r
    else (k, a) :: r

theorem mem_put {k : κ} {a : α} {l : List (κ × α)} {x : κ × α} (h : x ∈ put k a l) :
    x = (k, a) ∨ x ∈ l := by
  induction l with
  | nil => simpa [put] using h
  | cons e r ih =>
    obtain ⟨k', a'⟩ := e
    rw [put] at h
    split at h
    · simpa using h
    · split at h
      · rcases List.mem_cons.1 h with h | h
        · simp [h]
        · rcases ih h with h | h
          · exact .inl h
          · exact .inr (List.mem_cons_of_mem _ h)
      · rcases List.mem_cons.1 h with h | h
        · exact .inl h
        · exact .inr (List.mem_cons_of_mem _ h)

theorem pairwise_put [KeyOrder κ] (k : κ) (a : α) {l : List (κ × α)}
    (h : l.Pairwise fun x y => x.1 < y.1) : (put k a l).Pairwise fun x y => x.1 < y.1 := by
  induction l with
  | nil => simp [put]
  | cons e r ih =>
    obtain ⟨k', a'⟩ := e
    rw [List.pairwise_cons] at h
    rw [put]
    split
    · next hlt =>
      refine List.pairwise_cons.2 ⟨fun x hx => ?_, List.pairwise_cons.2 h⟩
      rcases List.mem_cons.1 hx with rfl | hx
      · exact hlt
      · exact KeyOrder.trans _ _ _ hlt (h.1 x hx)
    · next hnlt =>
      split
      · next hgt =>
        refine List.pairwise_cons.2 ⟨fun x hx => ?_, ih h.2⟩
        rcases mem_put hx with rfl | hx
        · exact hgt
        · exact h.1 x hx
      · next hngt =>
        have hk : k = k' := KeyOrder.connected _ _ hnlt hngt
        subst hk
        exact List.pairwise_cons.2 h

def empty : SortedMap κ α := ⟨[], .nil⟩

def find? [DecidableEq κ] (m : SortedMap κ α) (k : κ) : Option α := lookup k m.entries

def insert [KeyOrder κ] (m : SortedMap κ α) (k : κ) (a : α) : SortedMap κ α :=
  ⟨put k a m.entries, pairwise_put k a m.sorted⟩

def erase [DecidableEq κ] (m : SortedMap κ α) (k : κ) : SortedMap κ α :=
  ⟨m.entries.filter fun e => e.1 ≠ k, m.sorted.filter _⟩

/-- The table of a list of entries; of two entries with one key the later counts. -/
def ofList [KeyOrder κ] (l : List (κ × α)) : SortedMap κ α :=
  l.foldl (fun m e => m.insert e.1 e.2) empty

def keys (m : SortedMap κ α) : List κ := m.entries.map Prod.fst

section Laws

variable [DecidableEq κ] [KeyOrder κ]

theorem lookup_put (k k' : κ) (a : α) (l : List (κ × α)) :
    lookup k' (put k a l) = if k' = k then some a else lookup k' l := by
  induction l with
  | nil => simp [put, lookup]
  | cons e r ih =>
    obtain ⟨k₀, a₀⟩ := e
    rw [put]
    split
    · simp [lookup]
    · next hnlt =>
      split
      · next hgt =>
        have hne : k₀ ≠ k := fun h => KeyOrder.irrefl _ (h ▸ hgt)
        by_cases h₀ : k' = k₀
        · subst h₀
          simp [lookup, hne]
        · simp [lookup, h₀, ih]
      · next hngt =>
        have hk : k = k₀ := KeyOrder.connected _ _ hnlt hngt
        subst hk
        by_cases h : k' = k <;> simp [lookup, h]

omit [LT κ] [DecidableLT κ] [KeyOrder κ] in
theorem lookup_filter_ne (k k' : κ) (l : List (κ × α)) :
    lookup k' (l.filter fun e => e.1 ≠ k) = if k' = k then none else lookup k' l := by
  induction l with
  | nil => simp [lookup]
  | cons e r ih =>
    obtain ⟨k₀, a₀⟩ := e
    by_cases h₀ : k₀ = k
    · subst h₀
      rw [List.filter_cons_of_neg (by simp), ih]
      by_cases h : k' = k₀ <;> simp [lookup, h]
    · rw [List.filter_cons_of_pos (by simpa using h₀)]
      by_cases h : k' = k₀
      · subst h
        simp [lookup, h₀]
      · rw [lookup, if_neg h, ih, lookup, if_neg h]

omit [DecidableLT κ] [KeyOrder κ] in
@[simp] theorem find?_empty (k : κ) : (empty : SortedMap κ α).find? k = none := rfl

theorem find?_insert (m : SortedMap κ α) (k k' : κ) (a : α) :
    (m.insert k a).find? k' = if k' = k then some a else m.find? k' :=
  lookup_put k k' a m.entries

omit [DecidableLT κ] [KeyOrder κ] in
theorem find?_erase (m : SortedMap κ α) (k k' : κ) :
    (m.erase k).find? k' = if k' = k then none else m.find? k' :=
  lookup_filter_ne k k' m.entries

end Laws

end SortedMap

end JointEscrow
