import JointEscrow.Json.Form

/-!
# Networks, methods and actions

The closed vocabularies of terms: the network that a contract settles on, the method by which a
program authorizes, and the actions on a path.
-/

namespace JointEscrow

/-- The networks that contract outputs may settle on. -/
inductive Network where
  | main
  | testnet
  | signet
  | regtest
  | mutiny
  deriving DecidableEq, Repr

namespace Network

def name : Network → String
  | main => "main"
  | testnet => "testnet"
  | signet => "signet"
  | regtest => "regtest"
  | mutiny => "mutiny"

def all : List Network := [main, testnet, signet, regtest, mutiny]

def ofName? (s : String) : Option Network := all.find? fun n => n.name = s

instance : JsonForm Network where
  toJson n := .str n.name
  ofJson? j := (enumName? j).bind ofName?

end Network

/-- The methods by which a program authorizes. -/
inductive Method where
  | endorse
  deriving DecidableEq, Repr

namespace Method

def name : Method → String
  | endorse => "endorse"

def all : List Method := [endorse]

def ofName? (s : String) : Option Method := all.find? fun m => m.name = s

instance : JsonForm Method where
  toJson m := .str m.name
  ofJson? j := (enumName? j).bind ofName?

end Method

/-- What a witness or a scheduled task may ask for on a path. -/
inductive Action where
  | close
  | dispute
  | resolve
  | lock
  | release
  deriving DecidableEq, Repr

namespace Action

def name : Action → String
  | close => "close"
  | dispute => "dispute"
  | resolve => "resolve"
  | lock => "lock"
  | release => "release"

def all : List Action := [close, dispute, resolve, lock, release]

def rank : Action → Nat
  | close => 0
  | dispute => 1
  | resolve => 2
  | lock => 3
  | release => 4

def ofName? (s : String) : Option Action := all.find? fun a => a.name = s

instance : LT Action := ⟨fun a b => a.rank < b.rank⟩

instance : DecidableLT Action := fun a b => inferInstanceAs (Decidable (a.rank < b.rank))

theorem rank_injective {a b : Action} (h : a.rank = b.rank) : a = b := by
  cases a <;> cases b <;> first | rfl | cases h

instance : KeyOrder Action where
  irrefl a := Nat.lt_irrefl a.rank
  trans _ _ _ hab hbc := Nat.lt_trans hab hbc
  connected _ _ hab hba :=
    rank_injective (Nat.le_antisymm (Nat.not_lt.1 hba) (Nat.not_lt.1 hab))

instance : JsonForm Action where
  toJson a := .str a.name
  ofJson? j := (enumName? j).bind ofName?

instance : KeyForm Action := ⟨name, ofName?⟩

end Action

end JointEscrow
