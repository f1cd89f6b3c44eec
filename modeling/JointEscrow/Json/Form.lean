import JointEscrow.Json.Value
import JointEscrow.Sorted.Map
import JointEscrow.Sorted.Set

/-!
# JSON forms of types

A type with a JSON form has one written form and a reader. Records are written as objects with
their fields in declared order. They are read from an object with the fields in any order, where
unknown fields are skipped and a known one must not be repeated, or from the list of their fields
in declared order, where only trailing fields with a default may be missing.
-/

namespace JointEscrow

/-- A type with a written JSON form and a reader of it. -/
class JsonForm (α : Type) where
  toJson : α → Json
  ofJson? : Json → Option α

export JsonForm (toJson ofJson?)

instance : JsonForm Json := ⟨id, some⟩

instance : JsonForm Bool where
  toJson := .bool
  ofJson?
    | .bool b => some b
    | _ => none

instance : JsonForm UInt64 where
  toJson := .num
  ofJson?
    | .num n => some n
    | _ => none

instance : JsonForm UInt32 where
  toJson n := .num n.toUInt64
  ofJson?
    | .num n => if n.toNat < UInt32.size then some n.toUInt32 else none
    | _ => none

instance : JsonForm String where
  toJson := .str
  ofJson?
    | .str s => some s
    | _ => none

instance {α : Type} [JsonForm α] : JsonForm (List α) where
  toJson l := .arr (l.map toJson)
  ofJson?
    | .arr items => items.mapM ofJson?
    | _ => none

instance {α : Type} [JsonForm α] : JsonForm (Option α) where
  toJson
    | some a => toJson a
    | none => .null
  ofJson?
    | .null => some none
    | j => (ofJson? j).map some

instance {α β : Type} [JsonForm α] [JsonForm β] : JsonForm (α × β) where
  toJson p := .arr [toJson p.1, toJson p.2]
  ofJson?
    | .arr [a, b] => do return (← ofJson? a, ← ofJson? b)
    | _ => none

instance {κ : Type} [LT κ] [DecidableLT κ] [KeyOrder κ] [JsonForm κ] :
    JsonForm (SortedSet κ) where
  toJson s := toJson s.elements
  ofJson? j := (ofJson? j : Option (List κ)).map .ofList

/-- A type whose values are written as the keys of an object. -/
class KeyForm (κ : Type) where
  toKey : κ → String
  ofKey? : String → Option κ

export KeyForm (toKey ofKey?)

instance : KeyForm String := ⟨id, some⟩

instance {κ α : Type} [LT κ] [DecidableLT κ] [KeyOrder κ] [KeyForm κ] [JsonForm α] :
    JsonForm (SortedMap κ α) where
  toJson m := .obj (m.entries.map fun e => (toKey e.1, toJson e.2))
  ofJson?
    | .obj members => do
      let entries ← members.mapM fun (k, x) => do
        return (← (ofKey? k : Option κ), ← (ofJson? x : Option α))
      return .ofList entries
    | _ => none

/-- The name in an enumeration's written form: the name itself, or an object that maps it to
null. -/
def enumName? : Json → Option String
  | .str s => some s
  | .obj [(s, .null)] => some s
  | _ => none

/-! ## Records -/

/-- The fields of a record that a value gives. -/
abbrev Row := List (String × Json)

namespace Row

/-- The known members of an object, none of them repeated. -/
def ofMembers? (names : List String) (members : List (String × Json)) : Option Row :=
  let known := members.filter fun m => m.1 ∈ names
  if (known.map Prod.fst).Nodup then some known else none

/-- The fields in a record's written form. A list must give at least the first `needed` of them. -/
def ofJson? (names : List String) (needed : Nat) : Json → Option Row
  | .obj members => ofMembers? names members
  | .arr items =>
    if needed ≤ items.length ∧ items.length ≤ names.length then some (names.zip items) else none
  | _ => none

def required {α : Type} [JsonForm α] (row : Row) (name : String) : Option α :=
  (row.lookup name).bind JsonForm.ofJson?

def optional {α : Type} [JsonForm α] (row : Row) (name : String) : Option (Option α) :=
  match row.lookup name with
  | none => some none
  | some j => JsonForm.ofJson? j

def withDefault {α : Type} [JsonForm α] (row : Row) (name : String) (default : α) : Option α :=
  match row.lookup name with
  | none => some default
  | some j => JsonForm.ofJson? j

end Row

end JointEscrow
