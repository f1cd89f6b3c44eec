/-!
# Finite binary64 numbers

A finite binary64 number is a sign, a whole mantissa below `2 ^ 53` and a power of two. `nearest`
rounds an exact quotient to one, ties to even; `decimal` gives the fewest digits that lie closer to
the number than to any other one; and `ofScaled?` is the value that a decimal literal is
read as: its first digits as one number, then one rounded multiplication or division by a power of
ten at a time.
-/

namespace JointEscrow

/-- The number `± mantissa * 2 ^ exponent`. -/
structure Binary64 where
  negative : Bool
  mantissa : Nat
  exponent : Int
  deriving DecidableEq, Repr

namespace Binary64

/-- `num * 2 ^ e / den` as a quotient of naturals. -/
def shifted (num den : Nat) (e : Int) : Nat × Nat :=
  if 0 ≤ e then (num * Nat.pow 2 e.toNat, den) else (num, den * Nat.pow 2 (-e).toNat)

/-- The whole number nearest to a quotient; a half goes to the even neighbour. -/
def roundQuotient (num den : Nat) : Nat :=
  let q := num / den
  let r := num % den
  if 2 * r < den then q
  else if den < 2 * r then q + 1
  else if q % 2 = 0 then q else q + 1

/-- The number nearest to a quotient, unless that is beyond the largest finite one. -/
def nearest (num den : Nat) : Option (Nat × Int) :=
  if num = 0 then some (0, -1074)
  else
    let bits : Int := (Nat.log2 num : Int) - Nat.log2 den
    let low := max (bits - 53) (-1074)
    let (n, k) := shifted num den (-low)
    let e := if Nat.pow 2 53 ≤ n / k then low + 1 else low
    let (n, k) := shifted num den (-e)
    let m := roundQuotient n k
    let (m, e) := if m = Nat.pow 2 53 then (Nat.pow 2 52, e + 1) else (m, e)
    if 971 < e then none else some (m, e)

/-- The product with a power of ten that is itself rounded first. -/
def timesPower (x : Nat × Int) (k : Nat) : Option (Nat × Int) := do
  let p ← nearest (Nat.pow 10 k) 1
  let (n, d) := shifted (x.1 * p.1) 1 (x.2 + p.2)
  nearest n d

/-- The quotient by a power of ten that is itself rounded first. -/
def overPower (x : Nat × Int) (k : Nat) : Option (Nat × Int) := do
  let p ← nearest (Nat.pow 10 k) 1
  let (n, d) := shifted x.1 p.1 (x.2 - p.2)
  nearest n d

/-- Divides by `10 ^ 308` until at most that exponent is left, then once more. -/
def scaleDown (x : Nat × Int) (k : Nat) : Option (Nat × Int) :=
  if x.1 = 0 then some x
  else if k ≤ 308 then overPower x k
  else do
    let y ← overPower x 308
    scaleDown y (k - 308)
termination_by k
decreasing_by omega

/-- The value that the digits `significand` followed by `e` powers of ten are read as. -/
def ofScaled? (negative : Bool) (significand : Nat) (e : Int) : Option Binary64 := do
  let x ← nearest significand 1
  let (m, e) ←
    if 0 ≤ e then
      if e ≤ 308 then timesPower x e.toNat else if x.1 = 0 then some x else none
    else scaleDown x (-e).toNat
  return ⟨negative, m, e⟩

/-- Whether the number nearest to `significand * 10 ^ e` is finite. -/
def inRange (significand : Nat) (e : Int) : Bool :=
  let top : Int := (Nat.toDigits 10 significand).length + e
  if significand = 0 ∨ top < 309 then true
  else if 309 < top then false
  else if 0 ≤ e then (nearest (significand * Nat.pow 10 e.toNat) 1).isSome
  else (nearest significand (Nat.pow 10 (-e).toNat)).isSome

/-- Twice the value and the two ends of the interval of reals that round to it, over a common
denominator: low end, value, high end, denominator. -/
def interval (x : Binary64) : Nat × Nat × Nat × Nat :=
  let low := if x.mantissa = Nat.pow 2 52 ∧ -1074 < x.exponent then 1 else 2
  let scale (n : Nat) : Nat × Nat := shifted n 4 x.exponent
  let (v, d) := scale (4 * x.mantissa)
  ((scale (4 * x.mantissa - low)).1, v, (scale (4 * x.mantissa + 2)).1, d)

/-- The multiple of `10 ^ k` nearest to the value among those that round to it, as a coefficient. -/
def onGrid? (x : Binary64) (k : Int) : Option Nat :=
  let (low, v, high, d) := x.interval
  let unit : Nat × Nat := if 0 ≤ k then (Nat.pow 10 k.toNat, 1) else (1, Nat.pow 10 (-k).toNat)
  let below := v * unit.2 / (d * unit.1)
  let inside (c : Nat) : Bool :=
    let y := c * unit.1 * d
    if x.mantissa % 2 = 0 then low * unit.2 ≤ y && y ≤ high * unit.2
    else low * unit.2 < y && y < high * unit.2
  let above := below + 1
  let gapBelow := v * unit.2 - below * unit.1 * d
  let gapAbove := above * unit.1 * d - v * unit.2
  match inside below, inside above with
  | true, true =>
    if gapBelow < gapAbove ∨ (gapBelow = gapAbove ∧ below % 2 = 0) then some below else some above
  | true, false => some below
  | false, true => some above
  | false, false => none

/-- The first grid with a hit, from the coarsest exponent `k` down. -/
def search (x : Binary64) : Nat → Int → Nat × Int
  | 0, k => (0, k)
  | n + 1, k =>
    match x.onGrid? k with
    | some 0 | none => search x n (k - 1)
    | some c => (c, k)

/-- The shortest digits of the number and the power of ten of the last one. -/
def decimal (x : Binary64) : Nat × Int :=
  if x.mantissa = 0 then (0, 0)
  else
    let (_, v, _, d) := x.interval
    let top : Int := if d ≤ v then (Nat.toDigits 10 (v / d)).length
      else 1 - (Nat.toDigits 10 (d / v)).length
    x.search 20 top

/-- The text of a number: positional with a point where the point falls within sixteen digits or
less than five zeros after it, and with a signed exponent otherwise. -/
def text (x : Binary64) : List Char :=
  let sign : List Char := if x.negative then ['-'] else []
  if x.mantissa = 0 then sign ++ ['0', '.', '0']
  else
    let (c, k) := x.decimal
    let ds := Nat.toDigits 10 c
    let point : Int := ds.length + k
    let exponent : List Char := (if point - 1 < 0 then '-' else '+')
      :: Nat.toDigits 10 (point - 1).natAbs
    sign ++
      if 0 ≤ k ∧ point ≤ 16 then ds ++ List.replicate k.toNat '0' ++ ['.', '0']
      else if 0 < point ∧ point ≤ 16 then ds.take point.toNat ++ '.' :: ds.drop point.toNat
      else if -5 < point ∧ point ≤ 0 then
        '0' :: '.' :: List.replicate (-point).toNat '0' ++ ds
      else match ds with
        | [] => []
        | [c] => c :: 'e' :: exponent
        | c :: rest => c :: '.' :: rest ++ 'e' :: exponent

end Binary64

end JointEscrow
