/-!
# BLAKE3

The plain 32-byte hash of a byte string. The message is cut into chunks of 1024 bytes; each chunk
folds its 64-byte blocks into a chaining value, and a binary tree whose left subtree is the largest
full one joins the chaining values of neighbours. The last compression of the root is marked and
gives the hash.
-/

namespace JointEscrow.Blake3

def initial : Vector UInt32 8 :=
  #v[0x6A09E667, 0xBB67AE85, 0x3C6EF372, 0xA54FF53A, 0x510E527F, 0x9B05688C, 0x1F83D9AB, 0x5BE0CD19]

def chunkStart : UInt32 := 1

def chunkEnd : UInt32 := 2

/-- The mark of a node that joins two others. -/
def parentMark : UInt32 := 4

/-- The mark of the last compression. -/
def rootMark : UInt32 := 8

/-- The word turned right by `n` places. -/
def rotate (x n : UInt32) : UInt32 := (x >>> n) ||| (x <<< (32 - n))

/-- Four words of the state that are mixed with each other: a column of it, or a diagonal. -/
structure Column where
  a : UInt32
  b : UInt32
  c : UInt32
  d : UInt32

/-- Mixes two message words into a column. -/
def Column.mix (v : Column) (x y : UInt32) : Column :=
  let a := v.a + v.b + x
  let d := rotate (v.d ^^^ a) 16
  let c := v.c + d
  let b := rotate (v.b ^^^ c) 12
  let a := a + b + y
  let d := rotate (d ^^^ a) 8
  let c := c + d
  ⟨a, rotate (b ^^^ c) 7, c, d⟩

/-- The sixteen words of the state, in four columns. -/
structure State where
  p : Column
  q : Column
  r : Column
  s : Column

/-- The diagonals of the state, taken as columns. -/
def State.diagonals (v : State) : State :=
  ⟨⟨v.p.a, v.q.b, v.r.c, v.s.d⟩, ⟨v.q.a, v.r.b, v.s.c, v.p.d⟩,
    ⟨v.r.a, v.s.b, v.p.c, v.q.d⟩, ⟨v.s.a, v.p.b, v.q.c, v.r.d⟩⟩

/-- The state whose diagonals these are. -/
def State.undiagonals (v : State) : State :=
  ⟨⟨v.p.a, v.s.b, v.r.c, v.q.d⟩, ⟨v.q.a, v.p.b, v.s.c, v.r.d⟩,
    ⟨v.r.a, v.q.b, v.p.c, v.s.d⟩, ⟨v.s.a, v.r.b, v.q.c, v.p.d⟩⟩

/-- One round: the columns of the state, then its diagonals. -/
def round (v : State) (m : Vector UInt32 16) : State :=
  let v : State := ⟨v.p.mix m[0] m[1], v.q.mix m[2] m[3], v.r.mix m[4] m[5], v.s.mix m[6] m[7]⟩
  let v := v.diagonals
  let v : State :=
    ⟨v.p.mix m[8] m[9], v.q.mix m[10] m[11], v.r.mix m[12] m[13], v.s.mix m[14] m[15]⟩
  v.undiagonals

/-- The order of the message words in the next round. -/
def permute (m : Vector UInt32 16) : Vector UInt32 16 :=
  #v[m[2], m[6], m[3], m[10], m[7], m[0], m[4], m[13],
     m[1], m[11], m[12], m[5], m[9], m[14], m[15], m[8]]

/-- The given number of rounds, with the message words permuted in between. -/
def rounds : Nat → State → Vector UInt32 16 → State
  | 0, v, _ => v
  | n + 1, v, m => rounds n (round v m) (permute m)

/-- What one compression works on. -/
structure Node where
  chaining : Vector UInt32 8
  block : Vector UInt32 16
  counter : UInt64
  length : UInt32
  marks : UInt32

def Node.compress (n : Node) : Vector UInt32 8 :=
  let h := n.chaining
  let v := rounds 7
    ⟨⟨h[0], h[4], initial[0], n.counter.toUInt32⟩,
      ⟨h[1], h[5], initial[1], (n.counter >>> 32).toUInt32⟩,
      ⟨h[2], h[6], initial[2], n.length⟩,
      ⟨h[3], h[7], initial[3], n.marks⟩⟩ n.block
  #v[v.p.a ^^^ v.p.c, v.q.a ^^^ v.q.c, v.r.a ^^^ v.r.c, v.s.a ^^^ v.s.c,
     v.p.b ^^^ v.p.d, v.q.b ^^^ v.q.d, v.r.b ^^^ v.r.d, v.s.b ^^^ v.s.d]

/-- The words of a byte string, four bytes each, lowest byte first; missing bytes are zero. -/
def words : List UInt8 → List UInt32
  | [] => []
  | [b0] => [b0.toUInt32]
  | [b0, b1] => [b0.toUInt32 ||| (b1.toUInt32 <<< 8)]
  | [b0, b1, b2] => [b0.toUInt32 ||| (b1.toUInt32 <<< 8) ||| (b2.toUInt32 <<< 16)]
  | b0 :: b1 :: b2 :: b3 :: rest =>
    (b0.toUInt32 ||| (b1.toUInt32 <<< 8) ||| (b2.toUInt32 <<< 16) ||| (b3.toUInt32 <<< 24))
      :: words rest

/-- The block of at most 64 bytes, filled up with zeros. -/
def blockWords (bytes : List UInt8) : Vector UInt32 16 :=
  let ws := (words bytes).toArray
  Vector.ofFn fun i : Fin 16 => ws.getD i 0

/-- The last node of a chunk whose earlier blocks have been folded into `chaining`. -/
def chunkFrom (counter : UInt64) (chaining : Vector UInt32 8) (start : UInt32)
    (bytes : List UInt8) : Node :=
  if 64 < bytes.length then
    let node : Node := ⟨chaining, blockWords (bytes.take 64), counter, 64, start⟩
    chunkFrom counter node.compress 0 (bytes.drop 64)
  else ⟨chaining, blockWords bytes, counter, UInt32.ofNat bytes.length, start ||| chunkEnd⟩
termination_by bytes.length
decreasing_by simp only [List.length_drop]; omega

def join (left right : Vector UInt32 8) : Node :=
  ⟨initial, left ++ right, 0, 64, parentMark⟩

/-- The size of the left part of a message of more than 1024 bytes: the largest power of two of
whole chunks that leaves something for the right part. -/
def leftSize (size : Nat) : Nat := 1024 * Nat.pow 2 (Nat.log2 ((size - 1) / 1024))

theorem leftSize_lt {size : Nat} (h : 1024 < size) : leftSize size < size := by
  have hpos : (size - 1) / 1024 ≠ 0 := by omega
  have : Nat.pow 2 (Nat.log2 ((size - 1) / 1024)) ≤ (size - 1) / 1024 := Nat.log2_self_le hpos
  unfold leftSize
  omega

theorem leftSize_pos (size : Nat) : 0 < leftSize size := by
  unfold leftSize
  exact Nat.mul_pos (by decide) (Nat.pow_pos (by decide))

/-- The top node of the tree over a message that starts with chunk number `counter`. -/
def tree (counter : Nat) (bytes : List UInt8) : Node :=
  if 1024 < bytes.length then
    let k := leftSize bytes.length
    join (tree counter (bytes.take k)).compress (tree (counter + k / 1024) (bytes.drop k)).compress
  else chunkFrom (UInt64.ofNat counter) initial chunkStart bytes
termination_by bytes.length
decreasing_by
  · have := leftSize_lt ‹1024 < bytes.length›
    simp only [List.length_take]
    omega
  · have := leftSize_pos bytes.length
    simp only [List.length_drop]
    omega

def hash (bytes : List UInt8) : Vector UInt8 32 :=
  let top := tree 0 bytes
  let out := { top with marks := top.marks ||| rootMark }.compress
  Vector.ofFn fun i : Fin 32 =>
    (out.get ⟨i.val / 4, by omega⟩ >>> (8 * UInt32.ofNat (i.val % 4))).toUInt8

end JointEscrow.Blake3
