import JointEscrow.Bytes.Hex

/-!
# TOML texts and keys

A text stands between double quotes, where a backslash escapes, or between single quotes, where
nothing does; three quotes of either kind let it run over several lines. A key is a path of parts
with dots between them, each one bare or quoted on one line. Readers take the characters from a
place on and give what they read with the rest.
-/

namespace JointEscrow.Toml

/-- A character within a line that is not for control, or a tab. -/
def isPlain (c : Char) : Bool := c = '\t' || (0x20 ≤ c.toNat && c.toNat ≠ 0x7F)

/-- The two characters that may stand between the parts of a line. -/
def isSpace (c : Char) : Bool := c = ' ' || c = '\t'

def skipSpace (s : List Char) : List Char := s.dropWhile isSpace

/-- The rest after the end of a line, if there is one. -/
def lineEnd? : List Char → Option (List Char)
  | '\n' :: r => some r
  | '\r' :: '\n' :: r => some r
  | _ => none

/-! ## Texts -/

/-- The character that a one-letter escape stands for. -/
def shortEscape? (c : Char) : Option Char :=
  if c = '"' then some '"'
  else if c = '\\' then some '\\'
  else if c = 'b' then some '\x08'
  else if c = 'f' then some '\x0c'
  else if c = 'n' then some '\n'
  else if c = 'r' then some '\r'
  else if c = 't' then some '\t'
  else none

/-- The character whose number some hexadecimal digits write. -/
def numbered? (ds : List Char) : Option Char := do
  let values ← ds.mapM Hex.digitOf?
  let n := values.foldl (fun n d => 16 * n + d) 0
  if n.isValidChar then some (Char.ofNat n) else none

/-- A character put before a text that is read from the rest. -/
def before (c : Char) (x : Option (List Char × List Char)) : Option (List Char × List Char) :=
  x.map fun (t, rest) => (c :: t, rest)

/-- A text on one line with escapes, after its opening quote. -/
def readQuoted : List Char → Option (List Char × List Char)
  | [] => none
  | '"' :: r => some ([], r)
  | '\\' :: 'u' :: a :: b :: c :: d :: r => do before (← numbered? [a, b, c, d]) (readQuoted r)
  | '\\' :: 'U' :: a :: b :: c :: d :: e :: f :: g :: h :: r => do
    before (← numbered? [a, b, c, d, e, f, g, h]) (readQuoted r)
  | '\\' :: e :: r => do before (← shortEscape? e) (readQuoted r)
  | c :: r => if isPlain c ∧ c ≠ '\\' then before c (readQuoted r) else none

/-- A text on one line without escapes, after its opening quote. -/
def readVerbatim : List Char → Option (List Char × List Char)
  | [] => none
  | c :: r => if c = '\'' then some ([], r) else if isPlain c then before c (readVerbatim r) else none

/-- What follows the first quote of a run that closes a long text: one or two quotes before the last
three belong to the text. -/
def closing? (quote : Char) : List Char → Option (List Char × List Char)
  | a :: b :: c :: d :: r =>
    if a = quote ∧ b = quote then
      if c = quote then
        if d = quote then some ([quote, quote], r) else some ([quote], d :: r)
      else some ([], c :: d :: r)
    else none
  | [a, b, c] =>
    if a = quote ∧ b = quote then
      if c = quote then some ([quote], []) else some ([], [c])
    else none
  | [a, b] => if a = quote ∧ b = quote then some ([], []) else none
  | _ => none

/-- Whether a backslash before these characters takes away the end of the line with all blanks up
to the next character that shows. -/
def joinsLines (s : List Char) : Bool := (lineEnd? (skipSpace s)).isSome

/-- A long text with escapes, after its opening quotes. The flag tells that a line is being joined to
the one before. -/
def readLongQuoted : Bool → List Char → Option (List Char × List Char)
  | _, [] => none
  | _, '"' :: r =>
    match closing? '"' r with
    | some (t, rest) => some (t, rest)
    | none => before '"' (readLongQuoted false r)
  | _, '\\' :: 'u' :: a :: b :: c :: d :: r => do
    before (← numbered? [a, b, c, d]) (readLongQuoted false r)
  | _, '\\' :: 'U' :: a :: b :: c :: d :: e :: f :: g :: h :: r => do
    before (← numbered? [a, b, c, d, e, f, g, h]) (readLongQuoted false r)
  | _, '\\' :: e :: r =>
    if joinsLines (e :: r) then readLongQuoted true (e :: r)
    else do before (← shortEscape? e) (readLongQuoted false r)
  | joining, '\r' :: '\n' :: r =>
    if joining then readLongQuoted true r else before '\n' (readLongQuoted false r)
  | joining, c :: r =>
    if joining ∧ (c = '\n' ∨ isSpace c) then readLongQuoted true r
    else if c = '\n' ∨ (isPlain c ∧ c ≠ '\\') then before c (readLongQuoted false r)
    else none

/-- A long text without escapes, after its opening quotes. -/
def readLongVerbatim : List Char → Option (List Char × List Char)
  | [] => none
  | '\'' :: r =>
    match closing? '\'' r with
    | some (t, rest) => some (t, rest)
    | none => before '\'' (readLongVerbatim r)
  | '\r' :: '\n' :: r => before '\n' (readLongVerbatim r)
  | c :: r => if c = '\n' ∨ isPlain c then before c (readLongVerbatim r) else none

/-- A text of any of the four kinds. A line that ends right after three quotes is dropped. -/
def readText : List Char → Option (List Char × List Char)
  | '"' :: '"' :: '"' :: r => readLongQuoted false ((lineEnd? r).getD r)
  | '"' :: r => readQuoted r
  | '\'' :: '\'' :: '\'' :: r => readLongVerbatim ((lineEnd? r).getD r)
  | '\'' :: r => readVerbatim r
  | _ => none

/-! ## Keys -/

/-- A character of a bare key. -/
def isBare (c : Char) : Bool := c.isAlphanum || c = '_' || c = '-'

def readKeyPart : List Char → Option (String × List Char)
  | '"' :: r => (readQuoted r).map fun (t, rest) => (String.ofList t, rest)
  | '\'' :: r => (readVerbatim r).map fun (t, rest) => (String.ofList t, rest)
  | s =>
    let t := s.takeWhile isBare
    if t.isEmpty then none else some (String.ofList t, s.dropWhile isBare)

/-- The parts of a key, with spaces around each. The first argument bounds their number. -/
def readKeyParts : Nat → List Char → Option (List String × List Char)
  | 0, _ => none
  | n + 1, s => do
    let (part, r) ← readKeyPart (skipSpace s)
    match skipSpace r with
    | '.' :: r =>
      let (parts, rest) ← readKeyParts n r
      return (part :: parts, rest)
    | rest => return ([part], rest)

/-- The most parts of a key, and the most lists and tables around a value, that a text may have. -/
def nestingLimit : Nat := 79

def readKey (s : List Char) : Option (List String × List Char) := readKeyParts nestingLimit s

end JointEscrow.Toml
