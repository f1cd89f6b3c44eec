import JointEscrow.Text.Unseen

/-!
# Quoted text for messages

A message that names a text exactly puts it between quotes, with short escapes for the common
control characters, a backslash before the quote and the backslash, and `\u` with the code point in
braces for every other character that cannot be seen.
-/

namespace JointEscrow.Text

/-- The lowercase hexadecimal digits of a number, without leading zeros. -/
def hexNumber (n : Nat) : List Char := Nat.toDigits 16 n

/-- One character of a text quoted with `quote`. -/
def quoteChar (quote c : Char) : List Char :=
  if c = '\x00' then ['\\', '0']
  else if c = '\t' then ['\\', 't']
  else if c = '\r' then ['\\', 'r']
  else if c = '\n' then ['\\', 'n']
  else if c = '\\' then ['\\', '\\']
  else if c = quote then ['\\', c]
  else if isUnseen c then '\\' :: 'u' :: '\x7b' :: hexNumber c.toNat ++ ['\x7d']
  else [c]

def quoted (s : String) : String :=
  String.ofList ('"' :: s.toList.flatMap (quoteChar '"') ++ ['"'])

def quotedChar (c : Char) : String := String.ofList ('\'' :: quoteChar '\'' c ++ ['\''])

/-- `Some(..)` around a value that is there, `None` for one that is not. -/
def optional {α : Type} (write : α → String) : Option α → String
  | none => "None"
  | some a => s!"Some({write a})"

end JointEscrow.Text
