/-!
# The twisted Edwards curve of signatures

Points of `-x² + y² = 1 + d x² y²` over the integers modulo `2^255 - 19`, in extended coordinates,
with their group operation, multiples, and the 32-byte form that gives `y` and the sign of `x`.
-/

namespace JointEscrow.Edwards

def prime : Nat := Nat.pow 2 255 - 19

/-- The number of multiples of the base point. -/
def order : Nat := Nat.pow 2 252 + 27742317777372353535851937790883648493

instance : @NeZero Nat Zero.ofOfNat0 prime := ⟨by decide⟩

abbrev Scalar := Fin prime

def scalar (n : Nat) : Scalar := Fin.ofNat prime n

/-- The power with a natural exponent, by repeated squaring. -/
def power (x : Scalar) (n : Nat) : Scalar :=
  if n = 0 then 1
  else
    let h := power x (n / 2)
    if n % 2 = 0 then h * h else h * h * x
termination_by n
decreasing_by omega

/-- The inverse, and zero for zero. -/
def inverse (x : Scalar) : Scalar := power x (prime - 2)

def d : Scalar :=
  scalar 37095705934669439343138083508754565189542113879843219016388785533085940283555

/-- A square root of `-1`. -/
def rootOfMinusOne : Scalar := power 2 ((prime - 1) / 4)

/-- A point in extended coordinates: the affine point is `(x / z, y / z)`, and `t = x y / z`. -/
structure Point where
  x : Scalar
  y : Scalar
  z : Scalar
  t : Scalar

def Point.zero : Point := ⟨0, 1, 1, 0⟩

/-- The group operation; it has no exceptional cases. -/
def Point.add (p q : Point) : Point :=
  let a := (p.y - p.x) * (q.y - q.x)
  let b := (p.y + p.x) * (q.y + q.x)
  let c := 2 * d * p.t * q.t
  let e := 2 * p.z * q.z
  ⟨(b - a) * (e - c), (e + c) * (b + a), (e - c) * (e + c), (b - a) * (b + a)⟩

def Point.neg (p : Point) : Point := ⟨-p.x, p.y, p.z, -p.t⟩

/-- The multiple by a natural number, by repeated doubling. -/
def Point.multiple (n : Nat) (p : Point) : Point :=
  if n = 0 then .zero
  else
    let h := p.multiple (n / 2)
    let h2 := h.add h
    if n % 2 = 0 then h2 else h2.add p
termination_by n
decreasing_by omega

def Point.affine (x y : Scalar) : Point := ⟨x, y, 1, x * y⟩

/-- The number that a point is written as: `y`, with the parity of `x` in the top bit. -/
def Point.code (p : Point) : Nat :=
  let i := inverse p.z
  (p.y * i).val + Nat.pow 2 255 * ((p.x * i).val % 2)

/-- The square root of `u / v` that is even, if there is one. -/
def evenRoot? (u v : Scalar) : Option Scalar :=
  let v3 := v * v * v
  let r := u * v3 * power (u * v3 * v3 * v) ((prime - 5) / 8)
  let check := v * r * r
  let even (x : Scalar) : Scalar := if x.val % 2 = 0 then x else -x
  if check = u then some (even r)
  else if check = -u then some (even (r * rootOfMinusOne))
  else none

/-- The point that a number below `2 ^ 256` is the code of. The coordinate `y` is taken modulo the
prime, and the sign of a zero `x` is ignored. -/
def Point.ofCode? (n : Nat) : Option Point :=
  let y := scalar (n % Nat.pow 2 255)
  (evenRoot? (y * y - 1) (d * y * y + 1)).map fun x =>
    .affine (if n / Nat.pow 2 255 % 2 = 0 then x else -x) y

/-- The base point: `y` is four fifths and `x` is even. -/
def base : Point :=
  .affine (scalar 15112221349535400772501151409588531511454012693041857206046113283949847762202)
    (scalar 46316835694926478169428394003475163141307993866256225615783033603165251855960)

end JointEscrow.Edwards
