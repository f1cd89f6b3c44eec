/-!
# Numbers as bytes

Fixed-width numbers in both byte orders. A number below `capacity k` is read back from its `k` bytes
(`ofLittleEndian_littleEndian`), so equal bytes mean equal numbers.
-/

namespace JointEscrow

/-- How many numbers `k` bytes can write. -/
def capacity : Nat → Nat
  | 0 => 1
  | k + 1 => 256 * capacity k

/-- The `k` lowest bytes of a number, lowest first. -/
def littleEndian : Nat → Nat → List UInt8
  | 0, _ => []
  | k + 1, n => UInt8.ofNat (n % 256) :: littleEndian k (n / 256)

/-- The `k` lowest bytes of a number, highest first. -/
def bigEndian (k n : Nat) : List UInt8 := (littleEndian k n).reverse

def ofLittleEndian : List UInt8 → Nat
  | [] => 0
  | b :: r => b.toNat + 256 * ofLittleEndian r

@[simp] theorem length_littleEndian (k n : Nat) : (littleEndian k n).length = k := by
  induction k generalizing n with
  | zero => rfl
  | succ k ih => simp [littleEndian, ih]

@[simp] theorem length_bigEndian (k n : Nat) : (bigEndian k n).length = k := by
  simp [bigEndian]

theorem ofLittleEndian_littleEndian (k n : Nat) :
    ofLittleEndian (littleEndian k n) = n % capacity k := by
  induction k generalizing n with
  | zero => simp [littleEndian, ofLittleEndian, capacity, Nat.mod_one]
  | succ k ih =>
    rw [littleEndian, ofLittleEndian, ih, capacity, Nat.mod_mul]
    simp

theorem littleEndian_injective {k m n : Nat} (hm : m < capacity k) (hn : n < capacity k)
    (h : littleEndian k m = littleEndian k n) : m = n := by
  have := congrArg ofLittleEndian h
  rwa [ofLittleEndian_littleEndian, ofLittleEndian_littleEndian, Nat.mod_eq_of_lt hm,
    Nat.mod_eq_of_lt hn] at this

theorem bigEndian_injective {k m n : Nat} (hm : m < capacity k) (hn : n < capacity k)
    (h : bigEndian k m = bigEndian k n) : m = n := by
  unfold bigEndian at h
  exact littleEndian_injective hm hn (List.reverse_inj.1 h)

end JointEscrow
