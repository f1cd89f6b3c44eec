/-!
# Sums of 64-bit amounts

Amounts and times are 64-bit words. Where a sum may leave that range one of three rules applies,
and each has a name: `addChecked` says that it does not fit, `addClamped` (and `mulClamped`) stays
at the largest amount, and `addOrHalt` halts the whole operation with `Halt.overflow`. In natural
numbers the first is the exact sum or nothing (`addChecked_eq_some_iff`) and the second the smaller
of the exact sum and the largest amount (`toNat_addClamped`).
-/

namespace JointEscrow

/-- Why an operation gives no result: a sum that it relies on left the 64-bit range, or a cause of
its own. -/
inductive Halt (ε : Type) where
  | overflow
  | cause (e : ε)
  deriving DecidableEq, Repr

def maxAmount : UInt64 := UInt64.ofNat (UInt64.size - 1)

def addChecked (a b : UInt64) : Option UInt64 :=
  if a.toNat + b.toNat < UInt64.size then some (a + b) else none

/-- The sum, or the largest amount if that is smaller. -/
def addClamped (a b : UInt64) : UInt64 := (addChecked a b).getD maxAmount

/-- The product, or the largest amount if that is smaller. -/
def mulClamped (a b : UInt64) : UInt64 :=
  if a.toNat * b.toNat < UInt64.size then a * b else maxAmount

/-- The exact sum; the operation halts if it does not fit. -/
def addOrHalt {ε : Type} (a b : UInt64) : Except (Halt ε) UInt64 :=
  match addChecked a b with
  | some c => .ok c
  | none => .error .overflow

/-- The exact sum of a list if every partial sum fits. -/
def sumChecked (values : List UInt64) : Option UInt64 :=
  values.foldlM addChecked 0

/-- The sum of a list that stays at the largest amount once it gets there. -/
def sumClamped (values : List UInt64) : UInt64 := values.foldl addClamped 0

theorem toNat_maxAmount : maxAmount.toNat = UInt64.size - 1 := by decide

theorem addChecked_eq_some_iff {a b c : UInt64} :
    addChecked a b = some c ↔ a.toNat + b.toNat = c.toNat := by
  unfold addChecked
  have hc := c.toNat_lt_size
  split
  · next h =>
    rw [Option.some.injEq, ← UInt64.toNat_inj, UInt64.toNat_add]
    rw [Nat.mod_eq_of_lt h]
  · simp only [reduceCtorEq, false_iff]
    omega

theorem toNat_addClamped (a b : UInt64) :
    (addClamped a b).toNat = min (a.toNat + b.toNat) (UInt64.size - 1) := by
  unfold addClamped addChecked
  split
  · next h =>
    rw [Option.getD_some, UInt64.toNat_add, Nat.mod_eq_of_lt h]
    omega
  · rw [Option.getD_none, toNat_maxAmount]
    omega

theorem toNat_mulClamped (a b : UInt64) :
    (mulClamped a b).toNat = min (a.toNat * b.toNat) (UInt64.size - 1) := by
  unfold mulClamped
  split
  · next h =>
    rw [UInt64.toNat_mul, Nat.mod_eq_of_lt h]
    omega
  · rw [toNat_maxAmount]
    omega

end JointEscrow
