import JointEscrow.Toml.Value

/-!
# Building TOML tables

The additions that a text makes to a table: a value under a dotted key, a table under a header, and
a table at the end of a list. Nothing is ever defined twice, a dotted key adds only to what dotted
keys made, and what stands between braces is complete.
-/

namespace JointEscrow.Toml

/-- The members with the value of a key in the place of the one it had. -/
def replaceMember (key : String) (v : Toml) (ms : Members) : Members :=
  ms.map fun m => if m.1 = key then (key, v) else m

/-- The members with a value at a dotted key, if there is none yet. -/
def assign? : List String → Toml → Members → Option Members
  | [], _, _ => none
  | [key], v, ms =>
    match ms.lookup key with
    | none => some (ms ++ [(key, v)])
    | some _ => none
  | key :: next :: path, v, ms =>
    match ms.lookup key with
    | none => (assign? (next :: path) v []).map fun inner => ms ++ [(key, .table .dotted inner)]
    | some (.table origin inner) =>
      if origin = .dotted ∨ (origin = .implied ∧ path ≠ []) then
        (assign? (next :: path) v inner).map fun inner =>
          replaceMember key (.table origin inner) ms
      else none
    | some (.tables items) =>
      match items.getLast? with
      | some last =>
        if path ≠ [] then
          (assign? (next :: path) v last).map fun inner =>
            replaceMember key (.tables (items.dropLast ++ [inner])) ms
        else none
      | none => none
    | some _ => none

/-- The members with a change made in the table that a header path leads to. Tables on the way that
are not there yet are implied; a list of tables leads to its last one. -/
def within? : List String → (Members → Option Members) → Members → Option Members
  | [], change, ms => change ms
  | key :: path, change, ms =>
    match ms.lookup key with
    | none => (within? path change []).map fun inner => ms ++ [(key, .table .implied inner)]
    | some (.table origin inner) =>
      if origin = .braces then none
      else (within? path change inner).map fun inner =>
        replaceMember key (.table origin inner) ms
    | some (.tables items) =>
      match items.getLast? with
      | some last =>
        (within? path change last).map fun inner =>
          replaceMember key (.tables (items.dropLast ++ [inner])) ms
      | none => none
    | some _ => none

/-- The members with a table of its own header, which may have been implied before. -/
def declare? (key : String) (ms : Members) : Option Members :=
  match ms.lookup key with
  | none => some (ms ++ [(key, .table .header [])])
  | some (.table .implied inner) => some (replaceMember key (.table .header inner) ms)
  | some _ => none

/-- The members with an empty table at the end of a list of tables. -/
def extend? (key : String) (ms : Members) : Option Members :=
  match ms.lookup key with
  | none => some (ms ++ [(key, .tables [[]])])
  | some (.tables items) => some (replaceMember key (.tables (items ++ [[]])) ms)
  | some _ => none

end JointEscrow.Toml
