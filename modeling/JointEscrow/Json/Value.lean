import JointEscrow.Number.Binary64

/-!
# JSON values

A value keeps the members of an object in the order of the text, repeated keys included, because a
record may be written in any order and must not repeat a field.
-/

namespace JointEscrow

/-- A JSON value. Whole numbers in the 64-bit range are kept apart from all others. The last case is
a value that is well written and yet denotes nothing: a text with half of a surrogate pair, or a
number beyond the largest. -/
inductive Json where
  | null
  | bool (b : Bool)
  | num (n : UInt64)
  | negative (size : UInt64)
  | real (x : Binary64)
  | str (s : String)
  | arr (items : List Json)
  | obj (members : List (String × Json))
  | unreadable
  deriving Repr

namespace Json

mutual
/-- Whether every part of the value denotes something. -/
def readable : Json → Bool
  | .arr items => readableItems items
  | .obj members => readableMembers members
  | .unreadable => false
  | _ => true

def readableItems : List Json → Bool
  | [] => true
  | x :: r => x.readable && readableItems r

def readableMembers : List (String × Json) → Bool
  | [] => true
  | (_, x) :: r => x.readable && readableMembers r
end

mutual
/-- How many lists and objects enclose the innermost one, itself included. -/
def depth : Json → Nat
  | .arr items => depthItems items + 1
  | .obj members => depthMembers members + 1
  | _ => 0

def depthItems : List Json → Nat
  | [] => 0
  | x :: r => max x.depth (depthItems r)

def depthMembers : List (String × Json) → Nat
  | [] => 0
  | (_, x) :: r => max x.depth (depthMembers r)
end

/-- The deepest nesting that a reader of whole values accepts. -/
def depthLimit : Nat := 127

def member? (key : String) : Json → Option Json
  | .obj members => members.lookup key
  | _ => none

end Json

end JointEscrow
