/-!
# Keys of sorted tables

A type of keys has a decidable order in which two different keys are always comparable. Texts are
ordered by their code points, which is also the order of their UTF-8 bytes.
-/

namespace JointEscrow

/-- A strict total order. -/
class KeyOrder (κ : Type) [LT κ] : Prop where
  irrefl : ∀ a : κ, ¬ a < a
  trans : ∀ a b c : κ, a < b → b < c → a < c
  connected : ∀ a b : κ, ¬ a < b → ¬ b < a → a = b

instance : KeyOrder String where
  irrefl a := List.lt_irrefl a.toList
  trans _ _ _ hab hbc := List.lt_trans (α := Char) hab hbc
  connected _ _ hab hba := String.toList_inj.1 (List.le_antisymm (α := Char) hba hab)

end JointEscrow
