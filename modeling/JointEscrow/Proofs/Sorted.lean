import JointEscrow.Sorted.Map
import JointEscrow.Sorted.Set
import Mathlib.Data.List.Induction

/-!
# Entries and look-ups

A table has an entry exactly where a look-up finds it, and the elements of a sorted set are
distinct. A table and a set are each what is built from their own members (`ofList_entries`,
`ofList_elements`), and what is set in a table and then set again or taken out leaves no trace
(`insert_insert`, `erase_insert`). Lists sorted by a linear order are equal exactly when they hold
the same members as often (`DecidesOrder.mergeSort_eq_iff`).
-/

namespace JointEscrow

/-! ## Sorting -/

/-- The comparison decides a linear order. -/
structure DecidesOrder {α : Type} (le : α → α → Bool) (R : α → α → Prop) : Prop where
  iff : ∀ a b, le a b = true ↔ R a b
  trans : ∀ a b c, R a b → R b c → R a c
  total : ∀ a b, R a b ∨ R b a
  antisymm : ∀ a b, R a b → R b a → a = b

namespace DecidesOrder

variable {α : Type} {le : α → α → Bool} {R : α → α → Prop} {l r : List α}

theorem pairwise (h : DecidesOrder le R) (l : List α) : (l.mergeSort le).Pairwise R := by
  have htrans : ∀ a b c, le a b = true → le b c = true → le a c = true := by
    simp only [h.iff]
    exact h.trans
  have htotal : ∀ a b, (le a b || le b a) = true := by
    simp only [Bool.or_eq_true, h.iff]
    exact h.total
  apply (List.pairwise_mergeSort htrans htotal l).imp
  intro a b hab
  exact (h.iff a b).1 hab

theorem mergeSort_eq_iff (h : DecidesOrder le R) : l.mergeSort le = r.mergeSort le ↔ l.Perm r := by
  constructor
  · intro hsame
    exact (List.mergeSort_perm l le).symm.trans (hsame ▸ List.mergeSort_perm r le)
  · intro hperm
    apply List.Perm.eq_of_pairwise (fun a b _ _ => h.antisymm a b) (h.pairwise l) (h.pairwise r)
    exact (List.mergeSort_perm l le).trans (hperm.trans (List.mergeSort_perm r le).symm)

end DecidesOrder

/-! ## Tables and sets -/

variable {κ α : Type} [LT κ] [KeyOrder κ]

namespace SortedMap

variable [DecidableEq κ]

omit [LT κ] [KeyOrder κ] in
theorem mem_of_lookup {k : κ} {a : α} {l : List (κ × α)} (h : lookup k l = some a) :
    (k, a) ∈ l := by
  induction l with
  | nil => cases h
  | cons e r ih =>
    obtain ⟨k', a'⟩ := e
    rw [lookup] at h
    split at h
    · next hk =>
      cases h
      exact hk ▸ List.mem_cons_self
    · exact List.mem_cons_of_mem _ (ih h)

theorem lookup_of_mem {k : κ} {a : α} {l : List (κ × α)} (hl : l.Pairwise fun x y => x.1 < y.1)
    (h : (k, a) ∈ l) : lookup k l = some a := by
  induction l with
  | nil => cases h
  | cons e r ih =>
    obtain ⟨k', a'⟩ := e
    rw [List.pairwise_cons] at hl
    rcases List.mem_cons.1 h with heq | hr
    · cases heq
      simp [lookup]
    · have hne : k ≠ k' := by
        rintro rfl
        exact KeyOrder.irrefl k (hl.1 (k, a) hr)
      rw [lookup, if_neg hne]
      exact ih hl.2 hr

theorem mem_entries_iff {m : SortedMap κ α} {k : κ} {a : α} :
    (k, a) ∈ m.entries ↔ m.find? k = some a :=
  ⟨lookup_of_mem m.sorted, mem_of_lookup⟩

end SortedMap

namespace SortedMap

variable [DecidableLT κ]

omit [KeyOrder κ] in
theorem put_ne_nil (k : κ) (a : α) (l : List (κ × α)) : put k a l ≠ [] := by
  cases l with
  | nil => exact List.cons_ne_nil _ _
  | cons e r =>
    rw [put]
    repeat' split
    all_goals exact List.cons_ne_nil _ _

theorem put_of_lt {k : κ} {a : α} {l : List (κ × α)} (h : ∀ x ∈ l, x.1 < k) :
    put k a l = l ++ [(k, a)] := by
  induction l with
  | nil => rfl
  | cons e r ih =>
    obtain ⟨k', a'⟩ := e
    have hlt : k' < k := h (k', a') List.mem_cons_self
    have hnlt : ¬ k < k' := fun hgt => KeyOrder.irrefl k (KeyOrder.trans _ _ _ hgt hlt)
    rw [put, if_neg hnlt, if_pos hlt, ih fun x hx => h x (List.mem_cons_of_mem _ hx)]
    rfl

theorem entries_ofList {l : List (κ × α)} (h : l.Pairwise fun x y => x.1 < y.1) :
    (ofList l).entries = l := by
  induction l using List.reverseRecOn with
  | nil => rfl
  | append_singleton l e ih =>
    obtain ⟨hl, -, hbefore⟩ := List.pairwise_append.1 h
    have hlast : ∀ x ∈ l, x.1 < e.1 := fun x hx => hbefore x hx e (List.mem_singleton_self e)
    unfold ofList
    rw [List.foldl_append]
    show put e.1 e.2 (ofList l).entries = l ++ [e]
    rw [ih hl, put_of_lt hlast]

omit [KeyOrder κ] [DecidableLT κ] in
theorem entries_injective {m n : SortedMap κ α} (h : m.entries = n.entries) : m = n := by
  cases m
  cases n
  cases h
  rfl

/-- A table is what is built from its entries. -/
theorem ofList_entries (m : SortedMap κ α) : ofList m.entries = m :=
  entries_injective (entries_ofList m.sorted)

theorem put_put (k : κ) (a b : α) (l : List (κ × α)) : put k b (put k a l) = put k b l := by
  have hself : ¬ k < k := KeyOrder.irrefl k
  induction l with
  | nil => simp [put, hself]
  | cons e r ih =>
    obtain ⟨k', a'⟩ := e
    by_cases hlt : k < k'
    · simp [put, hself, hlt]
    · by_cases hgt : k' < k
      · simp [put, hlt, hgt, ih]
      · simp [put, hself, hlt, hgt]

/-- Of two values set for one key the later counts. -/
theorem insert_insert (m : SortedMap κ α) (k : κ) (a b : α) :
    (m.insert k a).insert k b = m.insert k b :=
  entries_injective (put_put k a b m.entries)

variable [DecidableEq κ]

theorem filter_put (k : κ) (a : α) (l : List (κ × α)) :
    (put k a l).filter (fun e => e.1 ≠ k) = l.filter fun e => e.1 ≠ k := by
  induction l with
  | nil => simp [put]
  | cons e r ih =>
    obtain ⟨k', a'⟩ := e
    rw [put]
    split
    · simp
    · next hnlt =>
      split
      · rw [List.filter_cons, List.filter_cons, ih]
      · next hngt =>
        have hk : k = k' := KeyOrder.connected _ _ hnlt hngt
        subst hk
        simp

/-- What is set and then taken out leaves no trace. -/
theorem erase_insert (m : SortedMap κ α) (k : κ) (a : α) : (m.insert k a).erase k = m.erase k := by
  unfold erase
  congr 1
  exact filter_put k a m.entries

end SortedMap

namespace SortedSet

theorem nodup_elements (s : SortedSet κ) : s.elements.Nodup := by
  refine s.sorted.imp ?_
  rintro a b hlt rfl
  exact KeyOrder.irrefl a hlt

variable [DecidableLT κ]

theorem place_of_lt {k : κ} {l : List κ} (h : ∀ x ∈ l, x < k) : place k l = l ++ [k] := by
  induction l with
  | nil => rfl
  | cons k' r ih =>
    have hlt : k' < k := h k' List.mem_cons_self
    have hnlt : ¬ k < k' := fun hgt => KeyOrder.irrefl k (KeyOrder.trans _ _ _ hgt hlt)
    rw [place, if_neg hnlt, if_pos hlt, ih fun x hx => h x (List.mem_cons_of_mem _ hx)]
    rfl

theorem elements_ofList {l : List κ} (h : l.Pairwise (· < ·)) : (ofList l).elements = l := by
  induction l using List.reverseRecOn with
  | nil => rfl
  | append_singleton l k ih =>
    obtain ⟨hl, -, hbefore⟩ := List.pairwise_append.1 h
    have hlast : ∀ x ∈ l, x < k := fun x hx => hbefore x hx k (List.mem_singleton_self k)
    unfold ofList
    rw [List.foldl_append]
    show place k (ofList l).elements = l ++ [k]
    rw [ih hl, place_of_lt hlast]

omit [KeyOrder κ] [DecidableLT κ] in
theorem elements_injective {s t : SortedSet κ} (h : s.elements = t.elements) : s = t := by
  cases s
  cases t
  cases h
  rfl

omit [DecidableLT κ] in
/-- Sets with the same elements are equal. -/
theorem eq_of_mem_iff {s t : SortedSet κ} (h : ∀ k, k ∈ s ↔ k ∈ t) : s = t := by
  have hperm : s.elements.Perm t.elements :=
    (List.perm_ext_iff_of_nodup s.nodup_elements t.nodup_elements).2 h
  refine elements_injective (hperm.eq_of_pairwise ?_ s.sorted t.sorted)
  intro a b _ _ hab hba
  exact absurd (KeyOrder.trans _ _ _ hab hba) (KeyOrder.irrefl a)

/-- The order in which elements are added makes no difference. -/
theorem foldl_insert_perm [DecidableEq κ] {l l' : List κ} (h : l.Perm l') (s : SortedSet κ) :
    l.foldl .insert s = l'.foldl .insert s := by
  apply eq_of_mem_iff
  intro k
  rw [mem_foldl_insert, mem_foldl_insert, h.mem_iff]

/-- A set is what is built from its elements. -/
theorem ofList_elements (s : SortedSet κ) : ofList s.elements = s :=
  elements_injective (elements_ofList s.sorted)

end SortedSet

end JointEscrow
