import JointEscrow.Toml.Members
import JointEscrow.Toml.Scalar
import JointEscrow.Toml.Text

/-!
# TOML documents

A document is a list of statements, one a line: a header that opens a table, a header that opens one
more table of a list, or a value under a key of the open table. `Toml.parse` reads the statements
and carries them out from an empty table on.
-/

namespace JointEscrow.Toml

inductive Statement where
  | header (path : List String)
  | item (path : List String)
  | assign (path : List String) (value : Toml)
  deriving Repr

/-! ## Values -/

def skipComment : List Char → List Char
  | '#' :: r => r.dropWhile isPlain
  | s => s

/-- The rest after blanks, ends of lines and comments. The flag tells that a comment has begun. -/
def skipGap : Bool → List Char → List Char
  | _, [] => []
  | _, '\r' :: '\n' :: r => skipGap false r
  | comment, c :: r =>
    if c = '\n' then skipGap false r
    else if comment ∧ isPlain c then skipGap true r
    else if isSpace c then skipGap false r
    else if c = '#' then skipGap true r
    else c :: r

mutual
/-- A value at the front of a text, and the rest. The first argument bounds the number of nested
calls, the second one the lists and tables that may still be opened. -/
def readValue : Nat → Nat → List Char → Option (Toml × List Char)
  | 0, _, _ => none
  | _ + 1, _, '"' :: r => (readText ('"' :: r)).map fun (t, rest) => (.text (String.ofList t), rest)
  | _ + 1, _, '\'' :: r =>
    (readText ('\'' :: r)).map fun (t, rest) => (.text (String.ofList t), rest)
  | _ + 1, 0, '[' :: _ => none
  | _ + 1, 0, '\x7b' :: _ => none
  | n + 1, level + 1, '[' :: r => do
    let (items, rest) ← readItems n level r
    return (.list items, rest)
  | n + 1, level + 1, '\x7b' :: r =>
    match skipSpace r with
    | '\x7d' :: rest => some (.table .braces [], rest)
    | r => do
      let (members, rest) ← readPairs n level [] r
      return (.table .braces members, rest)
  | _ + 1, _, s => readRun s

/-- Items up to the closing bracket; a comma may stand before it. -/
def readItems : Nat → Nat → List Char → Option (List Toml × List Char)
  | 0, _, _ => none
  | n + 1, level, s =>
    match skipGap false s with
    | ']' :: rest => some ([], rest)
    | s => do
      let (x, r) ← readValue n level s
      match skipGap false r with
      | ',' :: r => do
        let (xs, rest) ← readItems n level r
        return (x :: xs, rest)
      | ']' :: rest => return ([x], rest)
      | _ => none

/-- Pairs up to the closing brace, added to the members before them. -/
def readPairs : Nat → Nat → Members → List Char → Option (Members × List Char)
  | 0, _, _, _ => none
  | n + 1, level, ms, s => do
    let (path, r) ← readKey s
    match r with
    | '=' :: r => do
      let (v, r) ← readValue n level (skipSpace r)
      let ms ← assign? path v ms
      match skipSpace r with
      | ',' :: r => readPairs n level ms r
      | '\x7d' :: rest => return (ms, rest)
      | _ => none
    | _ => none
end

/-! ## Statements -/

/-- The rest after what may end a line: spaces and a comment. -/
def endLine? (s : List Char) : Option (List Char) :=
  match skipComment (skipSpace s) with
  | [] => some []
  | r => lineEnd? r

/-- A statement at the front of a line, and what follows it on the line. -/
def readStatement : List Char → Option (Statement × List Char)
  | '[' :: '[' :: r => do
    let (path, r) ← readKey r
    match r with
    | ']' :: ']' :: rest => return (.item path, rest)
    | _ => none
  | '[' :: r => do
    let (path, r) ← readKey r
    match r with
    | ']' :: rest => return (.header path, rest)
    | _ => none
  | s => do
    let (path, r) ← readKey s
    match r with
    | '=' :: r => do
      let (v, rest) ← readValue (2 * r.length + 2) nestingLimit (skipSpace r)
      return (.assign path v, rest)
    | _ => none

/-- The statements of a text. The first argument bounds the number of lines. -/
def readStatements : Nat → List Char → Option (List Statement)
  | 0, _ => none
  | n + 1, s =>
    match skipSpace s with
    | [] => some []
    | c :: r =>
      if c = '#' ∨ c = '\n' ∨ c = '\r' then do readStatements n (← endLine? (c :: r))
      else do
        let (statement, rest) ← readStatement (c :: r)
        return statement :: (← readStatements n (← endLine? rest))

/-! ## Carrying out -/

/-- What a document has built so far: the whole table, and the path of the open one. -/
structure Draft where
  root : Members
  here : List String

/-- The draft after one more statement. -/
def Draft.add? (d : Draft) : Statement → Option Draft
  | .header path => do
    let key ← path.getLast?
    return ⟨← within? path.dropLast (declare? key) d.root, path⟩
  | .item path => do
    let key ← path.getLast?
    return ⟨← within? path.dropLast (extend? key) d.root, path⟩
  | .assign path v => return ⟨← within? d.here (assign? path v) d.root, d.here⟩

/-- The table that statements build. -/
def ofStatements? (l : List Statement) : Option Toml :=
  (l.foldlM Draft.add? ⟨[], []⟩).map fun d => .table .header d.root

/-- The table that a text writes; a byte order mark before it is dropped. -/
def parse (s : String) : Option Toml := do
  let cs := match s.toList with
    | '\uFEFF' :: r => r
    | cs => cs
  ofStatements? (← readStatements (cs.length + 1) cs)

end JointEscrow.Toml
