import JointEscrow.Terms.Proposal
import JointEscrow.Witness

/-!
# Programs of a machine

A program grants its actions on its paths once enough of the keys it permits have endorsed them.
Programs are looked at in declared order and the first satisfied one counts.
-/

namespace JointEscrow

/-- A program with its identifier, the digest of its terms. -/
structure Program where
  progId : Digest
  method : Method
  actions : Pattern
  paths : Pattern
  threshold : UInt32
  members : List PublicKey
  deriving DecidableEq, Repr

namespace Program

instance : JsonForm Program where
  toJson p := .obj [("prog_id", toJson p.progId), ("method", toJson p.method),
    ("actions", toJson p.actions), ("paths", toJson p.paths), ("threshold", toJson p.threshold),
    ("members", toJson p.members)]
  ofJson? j := do
    let row ← Row.ofJson? ["prog_id", "method", "actions", "paths", "threshold", "members"] 6 j
    return ⟨← row.required "prog_id", ← row.required "method", ← row.required "actions",
      ← row.required "paths", ← row.required "threshold", ← row.required "members"⟩

def ofTerms (t : ProgramTerms) : Program :=
  ⟨.ofValue t, t.method, t.actions, t.paths, t.threshold, t.members⟩

/-- Whether the program speaks about the action on the path. -/
def grants (p : Program) (method : Method) (action : Action) (path : String) : Bool :=
  decide (p.method = method) && p.actions.admits action.name && p.paths.admits path

/-- Whether the key may endorse: it is a member, or there are none. -/
def permits (p : Program) (key : PublicKey) : Bool := p.members.isEmpty || decide (key ∈ p.members)

def countEndorsing (p : Program) (keys : SortedSet PublicKey) : Nat :=
  (keys.elements.filter p.permits).length

def satisfied (p : Program) (keys : SortedSet PublicKey) : Bool :=
  decide (p.threshold.toNat ≤ p.countEndorsing keys)

/-- The programs that speak about the action on the path. -/
def granting (programs : List Program) (method : Method) (action : Action) (path : String) :
    List Program :=
  programs.filter (·.grants method action path)

/-- Whether the key may endorse the witness under some program. -/
def mayEndorse (programs : List Program) (key : PublicKey) (w : Witness) : Bool :=
  (granting programs w.method w.action w.path).any (·.permits key)

/-- The first program that grants the action on the path and is satisfied by the keys. -/
def firstSatisfied (programs : List Program) (method : Method) (action : Action) (path : String)
    (keys : SortedSet PublicKey) : Option Program :=
  programs.find? fun p => p.grants method action path && p.satisfied keys

end Program

end JointEscrow
