import JointEscrow.Terms.Error
import JointEscrow.Text.Blank
import JointEscrow.Text.Split

/-!
# Patterns

A pattern is the wildcard `*` or a list of literal tokens written with `|` between them. Tokens are
matched exactly, with case. Their order is kept, so a pattern has one written form.
-/

namespace JointEscrow

/-- The wildcard, or literal tokens in written order. -/
inductive Pattern where
  | any
  | tokens (ts : List String)
  deriving DecidableEq, Repr

namespace Pattern

def admits : Pattern → String → Bool
  | any, _ => true
  | tokens ts, t => decide (t ∈ ts)

def isAny : Pattern → Bool
  | any => true
  | tokens _ => false

def literals : Pattern → List String
  | any => []
  | tokens ts => ts

theorem admits_iff {p : Pattern} {t : String} :
    p.admits t = true ↔ p = any ∨ t ∈ p.literals := by
  cases p <;> simp [admits, literals]

def text : Pattern → String
  | any => "*"
  | tokens ts => Text.joinTexts '|' ts

/-- Whether a text may stand as a token: something, without a wildcard or a blank. -/
def isToken (t : String) : Bool :=
  !t.isEmpty && t.toList.all fun c => c ≠ '*' && !Text.isBlank c

/-- The pattern that a text writes: the wildcard, or distinct tokens. -/
def ofText (s : String) : Except TermsError Pattern :=
  if s = "*" then .ok any
  else
    let ts := Text.splitText '|' s
    if ts.all isToken ∧ ts.Nodup then .ok (tokens ts) else .error (.invalidPattern s)

instance : JsonForm Pattern where
  toJson p := .str p.text
  ofJson?
    | .str s => (ofText s).toOption
    | _ => none

end Pattern

end JointEscrow
