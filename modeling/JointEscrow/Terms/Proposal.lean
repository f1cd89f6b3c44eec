import JointEscrow.Terms.Action
import JointEscrow.Terms.Pattern

/-!
# Proposals

The terms that the parties endorse together: named payout paths, payments made on every path,
programs that say who may act, and a schedule of fallbacks.
-/

namespace JointEscrow

/-- One payout of a named path. Several entries may share a label. -/
structure PathEntry where
  path : String
  value : UInt64
  address : String
  deriving DecidableEq, Repr

instance : JsonForm PathEntry where
  toJson e := .obj [("path", toJson e.path), ("value", toJson e.value), ("address", toJson e.address)]
  ofJson? j := do
    let row ← Row.ofJson? ["path", "value", "address"] 3 j
    return ⟨← row.required "path", ← row.required "value", ← row.required "address"⟩

structure Payment where
  value : UInt64
  address : String
  deriving DecidableEq, Repr

instance : JsonForm Payment where
  toJson p := .obj [("value", toJson p.value), ("address", toJson p.address)]
  ofJson? j := do
    let row ← Row.ofJson? ["value", "address"] 2 j
    return ⟨← row.required "value", ← row.required "address"⟩

/-- Payments are ordered by value and then by address. -/
def Payment.le (a b : Payment) : Bool :=
  decide (a.value < b.value) || (decide (a.value = b.value) && !decide (b.address < a.address))

/-- A rule of authorization: `threshold` of the members may endorse the actions on the paths. With
no members listed any key counts. -/
structure ProgramTerms where
  method : Method
  actions : Pattern
  paths : Pattern
  threshold : UInt32
  members : List PublicKey
  deriving DecidableEq, Repr

namespace ProgramTerms

/-- The endorsement program of two written patterns, with its members. -/
def ofTexts (actions paths : String) (threshold : UInt32) (members : List PublicKey) :
    Except TermsError ProgramTerms := do
  let actions ← Pattern.ofText actions
  let paths ← Pattern.ofText paths
  return ⟨.endorse, actions, paths, threshold, members⟩

def isOpen (p : ProgramTerms) : Bool := p.members.isEmpty

instance : JsonForm ProgramTerms where
  toJson p := .obj [("method", toJson p.method), ("actions", toJson p.actions),
    ("paths", toJson p.paths), ("threshold", toJson p.threshold), ("members", toJson p.members)]
  ofJson? j := do
    let row ← Row.ofJson? ["method", "actions", "paths", "threshold", "members"] 4 j
    return ⟨← row.required "method", ← row.required "actions", ← row.required "paths",
      ← row.required "threshold", ← row.withDefault "members" []⟩

end ProgramTerms

/-- A fallback: the action on the least matching path, `stamp` seconds after activation. -/
structure ScheduleEntry where
  stamp : UInt64
  action : Action
  path : Pattern
  deriving DecidableEq, Repr

namespace ScheduleEntry

def ofText (stamp : UInt64) (action : Action) (path : String) : Except TermsError ScheduleEntry :=
  (Pattern.ofText path).map fun p => ⟨stamp, action, p⟩

instance : JsonForm ScheduleEntry where
  toJson e := .obj [("stamp", toJson e.stamp), ("action", toJson e.action), ("path", toJson e.path)]
  ofJson? j := do
    let row ← Row.ofJson? ["stamp", "action", "path"] 3 j
    return ⟨← row.required "stamp", ← row.required "action", ← row.required "path"⟩

end ScheduleEntry

/-- The terms of a contract, fixed once endorsed. -/
structure Proposal where
  title : String
  content : String
  createdAt : UInt64
  deadline : Option UInt64
  effective : Option UInt64
  duration : UInt64
  feerate : Option UInt64
  moderator : Option PublicKey
  network : Network
  paths : List PathEntry
  payments : List Payment
  programs : List ProgramTerms
  schedule : List ScheduleEntry
  value : UInt64
  version : UInt32
  deriving DecidableEq, Repr

namespace Proposal

def fieldNames : List String :=
  ["title", "content", "created_at", "deadline", "effective", "duration", "feerate", "moderator",
    "network", "paths", "payments", "programs", "schedule", "value", "version"]

/-- A member that is left out when there is no value. -/
def given {α : Type} [JsonForm α] (name : String) : Option α → List (String × Json)
  | none => []
  | some a => [(name, toJson a)]

instance : JsonForm Proposal where
  toJson p := .obj <|
    [("title", toJson p.title), ("content", toJson p.content), ("created_at", toJson p.createdAt)]
    ++ given "deadline" p.deadline ++ given "effective" p.effective
    ++ [("duration", toJson p.duration)]
    ++ given "feerate" p.feerate ++ given "moderator" p.moderator
    ++ [("network", toJson p.network), ("paths", toJson p.paths), ("payments", toJson p.payments),
      ("programs", toJson p.programs), ("schedule", toJson p.schedule), ("value", toJson p.value),
      ("version", toJson p.version)]
  ofJson? j := do
    let row ← Row.ofJson? fieldNames 14 j
    return {
      title := ← row.required "title"
      content := ← row.withDefault "content" ""
      createdAt := ← row.required "created_at"
      deadline := ← row.optional "deadline"
      effective := ← row.optional "effective"
      duration := ← row.required "duration"
      feerate := ← row.optional "feerate"
      moderator := ← row.optional "moderator"
      network := ← row.required "network"
      paths := ← row.required "paths"
      payments := ← row.withDefault "payments" []
      programs := ← row.withDefault "programs" []
      schedule := ← row.withDefault "schedule" []
      value := ← row.required "value"
      version := ← row.withDefault "version" 1 }

def id (p : Proposal) : Digest := .ofValue p

def endorse (p : Proposal) (key : KeyPair) : Endorsement := .create key p.id

def endorsedBy (p : Proposal) (e : Endorsement) : Bool := e.verifies p.id

def members (p : Proposal) : SortedSet PublicKey := .ofList (p.programs.flatMap (·.members))

end Proposal

end JointEscrow
