import JointEscrow.Contract.Policy
import JointEscrow.Toml.Document

/-!
# Policy texts

A server's policy as a configuration text. Every setting may be left out, unknown settings are
skipped, and a group of settings may also be written as the list of its values in declared order.
-/

namespace JointEscrow

namespace Toml

/-- The settings that a value gives: the members of a table, or values in the order of the names. -/
def settings? (names : List String) (t : Toml) : Option Members :=
  match t.items? with
  | some items => some (names.zip items)
  | none => t.members?

/-- A setting, or its default when it is left out. -/
def setting {α : Type} (read? : Toml → Option α) (ms : Members) (name : String) (default : α) :
    Option α :=
  match ms.lookup name with
  | none => some default
  | some t => read? t

/-- An amount: a whole number that is not negative. -/
def amount? : Toml → Option UInt64
  | whole n => if 0 ≤ n then some (UInt64.ofNat n.toNat) else none
  | _ => none

def flag? : Toml → Option Bool
  | flag b => some b
  | _ => none

/-- Whether a value is a table or a list with nothing in it. -/
def isEmpty : Toml → Bool
  | list items => items.isEmpty
  | tables items => items.isEmpty
  | table _ members => members.isEmpty
  | _ => false

/-- A network, by its name or as a table of nothing under its name. -/
def network? : Toml → Option Network
  | text s => Network.ofName? s
  | table _ [(name, t)] => if t.isEmpty then Network.ofName? name else none
  | _ => none

def networks? (t : Toml) : Option (List Network) := do (← t.items?).mapM network?

end Toml

def ProposalPolicy.ofToml? (t : Toml) : Option ProposalPolicy := do
  let ms ← t.settings? fieldNames
  let d : ProposalPolicy := {}
  let amount := Toml.setting Toml.amount? ms
  return {
    minDuration := ← amount "min_duration" d.minDuration
    maxDuration := ← amount "max_duration" d.maxDuration
    minValue := ← amount "min_value" d.minValue
    maxValue := ← amount "max_value" d.maxValue
    minFeerate := ← amount "min_feerate" d.minFeerate
    maxFeerate := ← amount "max_feerate" d.maxFeerate
    maxDeadline := ← amount "max_deadline" d.maxDeadline
    networks := ← Toml.setting Toml.networks? ms "networks" d.networks }

def ContractPolicy.ofToml? (t : Toml) : Option ContractPolicy := do
  let ms ← t.settings? fieldNames
  let d : ContractPolicy := {}
  let amount := Toml.setting Toml.amount? ms
  return {
    txinSize := ← amount "txin_size" d.txinSize
    defaultDeadline := ← amount "default_deadline" d.defaultDeadline
    defaultFeerate := ← amount "default_feerate" d.defaultFeerate
    requireMemberEndorsements :=
      ← Toml.setting Toml.flag? ms "require_member_endorsements" d.requireMemberEndorsements }

def ServerPolicy.ofToml? (s : String) : Option ServerPolicy := do
  let ms ← (← Toml.parse s).members?
  return ⟨← Toml.setting ProposalPolicy.ofToml? ms "proposal" {},
    ← Toml.setting ContractPolicy.ofToml? ms "contract" {}⟩

end JointEscrow
