/-!
# TOML values

The values of a configuration text. A table remembers how it came to be, since that decides what
may still be added to it while the text is read. Of a real number and of a date or time only the
fact is kept: they may stand in a text, and nothing is configured by one.
-/

namespace JointEscrow

/-- How a table came to be. -/
inductive Toml.Origin where
  /-- between braces, and complete -/
  | braces
  /-- named on the way to another table in a header -/
  | implied
  /-- named on the way to a value in a dotted key -/
  | dotted
  /-- by its own header, or the whole text -/
  | header
  deriving DecidableEq, Repr

/-- A value. The last case is a list of tables that headers add to. -/
inductive Toml where
  | text (s : String)
  | whole (n : Int)
  | real
  | moment
  | flag (b : Bool)
  | list (items : List Toml)
  | table (origin : Toml.Origin) (members : List (String × Toml))
  | tables (items : List (List (String × Toml)))
  deriving Repr

namespace Toml

abbrev Members := List (String × Toml)

/-- The values in a list of either kind. -/
def items? : Toml → Option (List Toml)
  | list items => some items
  | tables items => some (items.map (table .header))
  | _ => none

/-- The members of a table. A date or time counts as a table of nothing known. -/
def members? : Toml → Option Members
  | table _ members => some members
  | moment => some []
  | _ => none

end Toml

end JointEscrow
