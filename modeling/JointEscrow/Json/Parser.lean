import JointEscrow.Bytes.Hex
import JointEscrow.Json.Value

/-!
# Reading JSON text

The reader of the standard grammar: blanks are the space, tab, line feed and carriage return; a
number has no leading zero and digits on both sides of its point; a text holds no control character;
nothing may follow the value. Half of a surrogate pair and a number beyond the largest are read as
`Json.unreadable`, since a reader that skips a member never looks at them.
-/

namespace JointEscrow.Json

/-- The four characters that may stand between tokens. -/
def isGap (c : Char) : Bool := c = ' ' || c = '\n' || c = '\t' || c = '\r'

def skipGap (s : List Char) : List Char := s.dropWhile isGap

/-! ## Texts -/

/-- A part of a quoted text: a character, or a code unit given by number. -/
inductive Piece where
  | char (c : Char)
  | unit (n : Nat)
  deriving DecidableEq, Repr

def hexUnit? (a b c d : Char) : Option Nat := do
  let a ← Hex.digitOf? a
  let b ← Hex.digitOf? b
  let c ← Hex.digitOf? c
  let d ← Hex.digitOf? d
  return ((a * 16 + b) * 16 + c) * 16 + d

/-- The character that a one-letter escape stands for. -/
def shortEscape? (c : Char) : Option Char :=
  if c = '"' then some '"'
  else if c = '\\' then some '\\'
  else if c = '/' then some '/'
  else if c = 'b' then some '\x08'
  else if c = 'f' then some '\x0c'
  else if c = 'n' then some '\n'
  else if c = 'r' then some '\r'
  else if c = 't' then some '\t'
  else none

/-- The parts of a quoted text up to its closing quote, and what follows that. -/
def readPieces : List Char → Option (List Piece × List Char)
  | [] => none
  | '"' :: r => some ([], r)
  | '\\' :: 'u' :: a :: b :: c :: d :: r => do
    let n ← hexUnit? a b c d
    let (ps, rest) ← readPieces r
    return (.unit n :: ps, rest)
  | '\\' :: e :: r => do
    let c ← shortEscape? e
    let (ps, rest) ← readPieces r
    return (.char c :: ps, rest)
  | c :: r =>
    if c.toNat < 0x20 ∨ c = '\\' then none
    else do
      let (ps, rest) ← readPieces r
      return (.char c :: ps, rest)

/-- The characters of the parts, if every surrogate has its other half right beside it. -/
def joinPieces : List Piece → Option (List Char)
  | [] => some []
  | .char c :: r => (joinPieces r).map (c :: ·)
  | [.unit n] => if 0xD800 ≤ n ∧ n < 0xE000 then none else some [Char.ofNat n]
  | .unit n :: .unit m :: r =>
    if 0xD800 ≤ n ∧ n < 0xDC00 then
      if 0xDC00 ≤ m ∧ m < 0xE000 then
        (joinPieces r).map (Char.ofNat (0x10000 + (n - 0xD800) * 0x400 + (m - 0xDC00)) :: ·)
      else none
    else if 0xDC00 ≤ n ∧ n < 0xE000 then none
    else (joinPieces (.unit m :: r)).map (Char.ofNat n :: ·)
  | .unit n :: .char c :: r =>
    if 0xD800 ≤ n ∧ n < 0xE000 then none
    else (joinPieces (.char c :: r)).map (Char.ofNat n :: ·)

/-- The text after an opening quote, `none` inside for one that denotes nothing. -/
def readText (s : List Char) : Option (Option String × List Char) :=
  (readPieces s).map fun (ps, rest) => ((joinPieces ps).map String.ofList, rest)

/-! ## Numbers -/

def digitValue (c : Char) : Nat := c.toNat - 48

/-- Digits folded into one 64-bit number as long as it fits; each digit left over counts as a power
of ten. -/
def foldWhole (ds : List Char) : Nat × Nat :=
  let rec go : List Char → Nat → Nat × Nat
    | [], n => (n, 0)
    | c :: r, n =>
      if n * 10 + digitValue c < UInt64.size then go r (n * 10 + digitValue c)
      else (n, (c :: r).length)
  go ds 0

/-- Digits after the point folded on as long as the number fits, and how many were; the rest is
dropped. -/
def foldFraction : List Char → Nat → Nat × Nat
  | [], n => (n, 0)
  | c :: r, n =>
    if n * 10 + digitValue c < UInt64.size then
      let (m, k) := foldFraction r (n * 10 + digitValue c)
      (m, k + 1)
    else (n, 0)

def digitsValue (ds : List Char) : Nat := ds.foldl (fun n c => n * 10 + digitValue c) 0

/-- The exponent that may follow the digits of a number: `none` outside for a malformed one, `none`
inside when there is none. -/
def readExponent : List Char → Option (Option Int × List Char)
  | c :: r =>
    if c = 'e' ∨ c = 'E' then
      let (minus, r) := match r with
        | '-' :: r => (true, r)
        | '+' :: r => (false, r)
        | r => (false, r)
      let ds := r.takeWhile Char.isDigit
      if ds.isEmpty then none
      else
        let n : Int := digitsValue ds
        some (some (if minus then -n else n), r.dropWhile Char.isDigit)
    else some (none, c :: r)
  | [] => some (none, [])

/-- The fraction that may follow the whole digits: `none` outside for a point without digits. -/
def readFraction : List Char → Option (Option (List Char) × List Char)
  | '.' :: r =>
    let ds := r.takeWhile Char.isDigit
    if ds.isEmpty then none else some (some ds, r.dropWhile Char.isDigit)
  | r => some (none, r)

/-- The value of a real literal; one beyond the largest number denotes nothing. -/
def realOf (minus : Bool) (significand : Nat) (exponent : Int) : Json :=
  match Binary64.ofScaled? minus significand exponent with
  | some x => .real x
  | none => .unreadable

/-- The size of the least 64-bit number with a sign. -/
def leastSize : Nat := 9223372036854775808

/-- The value of a literal without fraction and exponent. -/
def wholeOf (minus : Bool) (ds : List Char) : Json :=
  let n := digitsValue ds
  if minus then
    if 0 < n ∧ n ≤ leastSize then .negative (UInt64.ofNat n)
    else
      let (m, k) := foldWhole ds
      realOf true m k
  else if n < UInt64.size then .num (UInt64.ofNat n)
  else
    let (m, k) := foldWhole ds
    realOf false m k

def readNumber (s : List Char) : Option (Json × List Char) := do
  let (minus, s) := match s with
    | '-' :: r => (true, r)
    | r => (false, r)
  let ds := s.takeWhile Char.isDigit
  let rest := s.dropWhile Char.isDigit
  match ds with
  | [] => none
  | '0' :: _ :: _ => none
  | _ =>
    let (fraction, rest) ← readFraction rest
    let (exponent, rest) ← readExponent rest
    match fraction, exponent with
    | none, none => return (wholeOf minus ds, rest)
    | _, _ =>
      let (m, k) := foldWhole ds
      let (m, dropped) := foldFraction (fraction.getD []) m
      return (realOf minus m ((k : Int) - dropped + exponent.getD 0), rest)

/-! ## Values -/

/-- An object of read members; a key that denotes nothing spoils the whole object. -/
def objectOf (members : List (Option String × Json)) : Json :=
  match members.mapM fun m => m.1.map fun k => (k, m.2) with
  | some ms => .obj ms
  | none => .unreadable

mutual
/-- A value at the front of a text, and the rest. The first argument bounds the number of nested
calls. -/
def readValue : Nat → List Char → Option (Json × List Char)
  | 0, _ => none
  | n + 1, s =>
    match skipGap s with
    | 'n' :: 'u' :: 'l' :: 'l' :: r => some (.null, r)
    | 't' :: 'r' :: 'u' :: 'e' :: r => some (.bool true, r)
    | 'f' :: 'a' :: 'l' :: 's' :: 'e' :: r => some (.bool false, r)
    | '"' :: r => do
      let (t, rest) ← readText r
      return (match t with | some t => .str t | none => .unreadable, rest)
    | '[' :: r =>
      match skipGap r with
      | ']' :: rest => some (.arr [], rest)
      | r => do
        let (items, rest) ← readItems n r
        return (.arr items, rest)
    | '\x7b' :: r =>
      match skipGap r with
      | '\x7d' :: rest => some (.obj [], rest)
      | r => do
        let (members, rest) ← readMembers n r
        return (objectOf members, rest)
    | s => readNumber s

def readItems : Nat → List Char → Option (List Json × List Char)
  | 0, _ => none
  | n + 1, s => do
    let (x, r) ← readValue n s
    match skipGap r with
    | ',' :: r => do
      let (xs, rest) ← readItems n r
      return (x :: xs, rest)
    | ']' :: rest => return ([x], rest)
    | _ => none

def readMembers : Nat → List Char → Option (List (Option String × Json) × List Char)
  | 0, _ => none
  | n + 1, s =>
    match skipGap s with
    | '"' :: r => do
      let (k, r) ← readText r
      match skipGap r with
      | ':' :: r => do
        let (x, r) ← readValue n r
        match skipGap r with
        | ',' :: r => do
          let (ms, rest) ← readMembers n r
          return ((k, x) :: ms, rest)
        | '\x7d' :: rest => return ([(k, x)], rest)
        | _ => none
      | _ => none
    | _ => none
end

/-- The value that a text is, with nothing but gaps around it. -/
def parse (s : String) : Option Json := do
  let cs := s.toList
  let (x, rest) ← readValue (2 * cs.length + 2) cs
  if (skipGap rest).isEmpty then some x else none

end JointEscrow.Json
