import JointEscrow.Bytes.Hex
import JointEscrow.Number.Binary64
import JointEscrow.Toml.Value

/-!
# TOML numbers, dates and flags

A value that is neither quoted nor bracketed is one run of letters, digits and a few signs, and is
judged as a whole: a flag, a whole number in one of four bases, a real number, or a date with or
without a time. Digits may be grouped by single underscores.
-/

namespace JointEscrow.Toml

/-! ## Numbers -/

/-- The digits of a number without the underscores, each of which must stand between two digits. -/
def ungroup (isDigit : Char → Bool) : List Char → Option (List Char)
  | [] => none
  | [c] => if isDigit c then some [c] else none
  | c :: '_' :: r => if isDigit c then (ungroup isDigit r).map (c :: ·) else none
  | c :: r => if isDigit c then (ungroup isDigit r).map (c :: ·) else none

/-- A sign at the front, true for the minus, and the rest. -/
def splitSign : List Char → Bool × List Char
  | '-' :: r => (true, r)
  | '+' :: r => (false, r)
  | r => (false, r)

/-- A digit of a base of up to sixteen. -/
def isDigitOf (base : Nat) (c : Char) : Bool := (Hex.digitOf? c).any (· < base)

def numberIn (base : Nat) (ds : List Char) : Nat :=
  ds.foldl (fun n c => n * base + (Hex.digitOf? c).getD 0) 0

/-- The decimal digits of a whole number, which has no leading zero. -/
def wholeDigits? : List Char → Option (List Char)
  | ['0'] => some ['0']
  | '0' :: _ => none
  | s => ungroup Char.isDigit s

def inWord? (n : Int) : Option Int :=
  if Int64.minValue.toInt ≤ n ∧ n ≤ Int64.maxValue.toInt then some n else none

def based? (base : Nat) (s : List Char) : Option Int := do
  inWord? (numberIn base (← ungroup (isDigitOf base) s))

def whole? : List Char → Option Int
  | '0' :: 'x' :: r => based? 16 r
  | '0' :: 'o' :: r => based? 8 r
  | '0' :: 'b' :: r => based? 2 r
  | s => do
    let (minus, r) := splitSign s
    let n := numberIn 10 (← wholeDigits? r)
    inWord? (if minus then -n else n)

/-- The exponent after its letter; without one it is zero. -/
def exponent? : List Char → Option Int
  | [] => some 0
  | _ :: s => do
    let (minus, r) := splitSign s
    let n := numberIn 10 (← ungroup Char.isDigit r)
    return if minus then -n else n

/-- The digits after the point; without one there are none. -/
def fraction? : List Char → Option (List Char)
  | [] => some []
  | _ :: r => ungroup Char.isDigit r

/-- Whether a run is a real number: infinity, no number, or digits with a fraction or an exponent.
One with digits and no minus must not be rounded to infinity. -/
def isReal (s : List Char) : Bool :=
  let (minus, r) := splitSign s
  if r = ['i', 'n', 'f'] ∨ r = ['n', 'a', 'n'] then true
  else
    let isE (c : Char) : Bool := c = 'e' || c = 'E'
    let (digits, power) := (r.takeWhile (!isE ·), r.dropWhile (!isE ·))
    let (front, back) := (digits.takeWhile (· ≠ '.'), digits.dropWhile (· ≠ '.'))
    match wholeDigits? front, fraction? back, exponent? power with
    | some ds, some fs, some e =>
      !(back.isEmpty && power.isEmpty)
        && (minus || Binary64.inRange (numberIn 10 (ds ++ fs)) (e - fs.length))
    | _, _, _ => false

/-! ## Dates and times -/

def twoDigits? (low high : Nat) (a b : Char) : Option Nat :=
  let n := numberIn 10 [a, b]
  if a.isDigit ∧ b.isDigit ∧ low ≤ n ∧ n ≤ high then some n else none

def daysOf (year month : Nat) : Nat :=
  if month = 2 then
    if year % 4 = 0 ∧ (year % 100 ≠ 0 ∨ year % 400 = 0) then 29 else 28
  else if month = 4 ∨ month = 6 ∨ month = 9 ∨ month = 11 then 30
  else 31

def afterDate? : List Char → Option (List Char)
  | y₁ :: y₂ :: y₃ :: y₄ :: '-' :: m₁ :: m₂ :: '-' :: d₁ :: d₂ :: r => do
    let year := numberIn 10 [y₁, y₂, y₃, y₄]
    let month ← twoDigits? 1 12 m₁ m₂
    let _ ← twoDigits? 1 (daysOf year month) d₁ d₂
    if [y₁, y₂, y₃, y₄].all Char.isDigit then some r else none
  | _ => none

/-- The rest after a time of the day with an optional fraction of a second. -/
def afterTime? : List Char → Option (List Char)
  | h₁ :: h₂ :: ':' :: m₁ :: m₂ :: ':' :: s₁ :: s₂ :: r => do
    let _ ← twoDigits? 0 23 h₁ h₂
    let _ ← twoDigits? 0 59 m₁ m₂
    let _ ← twoDigits? 0 60 s₁ s₂
    match r with
    | '.' :: f =>
      if (f.takeWhile Char.isDigit).isEmpty then none else some (f.dropWhile Char.isDigit)
    | _ => some r
  | _ => none

/-- Whether the text after a time is an offset, or nothing. -/
def isOffset : List Char → Bool
  | [] => true
  | [c] => c = 'Z' || c = 'z'
  | [sign, h₁, h₂, ':', m₁, m₂] =>
    (sign = '+' || sign = '-') && (twoDigits? 0 23 h₁ h₂).isSome && (twoDigits? 0 59 m₁ m₂).isSome
  | _ => false

/-- Whether a run is a time of the day with an offset or without. -/
def isOffsetTime (s : List Char) : Bool := (afterTime? s).any isOffset

/-- Whether a run is a date, a time, or both with the letter T between them. -/
def isMoment (s : List Char) : Bool :=
  match afterDate? s with
  | some [] => true
  | some (c :: r) => (c = 'T' || c = 't') && isOffsetTime r
  | none => afterTime? s = some []

/-! ## Runs -/

def isRun (c : Char) : Bool :=
  c.isAlphanum || c = '+' || c = '-' || c = '_' || c = '.' || c = ':'

def ofRun? (s : List Char) : Option Toml :=
  if s = ['t', 'r', 'u', 'e'] then some (.flag true)
  else if s = ['f', 'a', 'l', 's', 'e'] then some (.flag false)
  else if isMoment s then some .moment
  else if isReal s then some .real
  else (whole? s).map .whole

/-- Whether a space is the one between a date and the time that follows it. -/
def spaceBeforeTime : List Char → Bool
  | ' ' :: h₁ :: h₂ :: ':' :: _ => h₁.isDigit && h₂.isDigit
  | _ => false

/-- A flag, a number or a moment at the front of a text. -/
def readRun (s : List Char) : Option (Toml × List Char) :=
  let run := s.takeWhile isRun
  let rest := s.dropWhile isRun
  if afterDate? run = some [] ∧ spaceBeforeTime rest then
    let time := (rest.drop 1).takeWhile isRun
    if isOffsetTime time then some (.moment, (rest.drop 1).dropWhile isRun) else none
  else (ofRun? run).map fun v => (v, rest)

end JointEscrow.Toml
