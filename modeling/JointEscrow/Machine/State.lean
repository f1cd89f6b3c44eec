import JointEscrow.Machine.Program
import JointEscrow.Number.Amount
import JointEscrow.Sorted.Map

/-!
# States of a machine

The configuration that a machine starts from, the states of its paths with the transition table,
the links of its log, and the whole machine state.
-/

namespace JointEscrow

structure MachineConfig where
  vmid : Digest
  activeAt : UInt64
  expiresAt : UInt64
  engine : String
  pathnames : List String
  programs : List ProgramTerms
  schedule : List ScheduleEntry
  deriving DecidableEq, Repr

instance : JsonForm MachineConfig where
  toJson c := .obj [("vmid", toJson c.vmid), ("active_at", toJson c.activeAt),
    ("expires_at", toJson c.expiresAt), ("engine", toJson c.engine),
    ("pathnames", toJson c.pathnames), ("programs", toJson c.programs),
    ("schedule", toJson c.schedule)]
  ofJson? j := do
    let row ← Row.ofJson?
      ["vmid", "active_at", "expires_at", "engine", "pathnames", "programs", "schedule"] 7 j
    return ⟨← row.required "vmid", ← row.required "active_at", ← row.required "expires_at",
      ← row.required "engine", ← row.required "pathnames", ← row.required "programs",
      ← row.required "schedule"⟩

inductive PathState where
  | «open»
  | locked
  | disputed
  | closed
  deriving DecidableEq, Repr

namespace PathState

def name : PathState → String
  | «open» => "open"
  | locked => "locked"
  | disputed => "disputed"
  | closed => "closed"

def all : List PathState := [«open», locked, disputed, closed]

def ofName? (s : String) : Option PathState := all.find? fun p => p.name = s

instance : JsonForm PathState where
  toJson p := .str p.name
  ofJson? j := (enumName? j).bind ofName?

/-- The state that an action leads to, if the state admits it. -/
def next? : PathState → Action → Option PathState
  | «open», .close => some closed
  | «open», .dispute => some disputed
  | locked, .dispute => some disputed
  | disputed, .resolve => some closed
  | «open», .lock => some locked
  | locked, .release => some «open»
  | _, _ => none

end PathState

/-- One link of the log: what was accepted, when, and the head before it. -/
structure Commit where
  step : UInt64
  stamp : UInt64
  wid : Digest
  priorHead : Digest
  deriving DecidableEq, Repr

instance : JsonForm Commit where
  toJson c := .obj [("step", toJson c.step), ("stamp", toJson c.stamp), ("wid", toJson c.wid),
    ("prior_head", toJson c.priorHead)]
  ofJson? j := do
    let row ← Row.ofJson? ["step", "stamp", "wid", "prior_head"] 4 j
    return ⟨← row.required "step", ← row.required "stamp", ← row.required "wid",
      ← row.required "prior_head"⟩

/-- A fallback that waits for its time. -/
structure Task where
  due : UInt64
  action : Action
  path : Pattern
  deriving DecidableEq, Repr

instance : JsonForm Task where
  toJson t := .obj [("due", toJson t.due), ("action", toJson t.action), ("path", toJson t.path)]
  ofJson? j := do
    let row ← Row.ofJson? ["due", "action", "path"] 3 j
    return ⟨← row.required "due", ← row.required "action", ← row.required "path"⟩

/-- The keys collected so far, by path and pending action. -/
abbrev Collected := SortedMap String (SortedMap Action (SortedSet PublicKey))

structure Machine where
  vmid : Digest
  engine : String
  activeAt : UInt64
  expiresAt : UInt64
  updatedAt : UInt64
  head : Digest
  step : UInt64
  paths : SortedMap String PathState
  programs : List Program
  store : Collected
  commits : List Commit
  tasks : List Task
  output : Option String
  error : Option String
  closed : Bool
  closedAt : Option UInt64
  deriving DecidableEq, Repr

namespace Machine

def fieldNames : List String :=
  ["vmid", "engine", "active_at", "expires_at", "updated_at", "head", "step", "paths", "programs",
    "store", "commits", "tasks", "output", "error", "closed", "closed_at"]

instance : JsonForm Machine where
  toJson m := .obj [("vmid", toJson m.vmid), ("engine", toJson m.engine),
    ("active_at", toJson m.activeAt), ("expires_at", toJson m.expiresAt),
    ("updated_at", toJson m.updatedAt), ("head", toJson m.head), ("step", toJson m.step),
    ("paths", toJson m.paths), ("programs", toJson m.programs), ("store", toJson m.store),
    ("commits", toJson m.commits), ("tasks", toJson m.tasks), ("output", toJson m.output),
    ("error", toJson m.error), ("closed", toJson m.closed), ("closed_at", toJson m.closedAt)]
  ofJson? j := do
    let row ← Row.ofJson? fieldNames 16 j
    return {
      vmid := ← row.required "vmid"
      engine := ← row.required "engine"
      activeAt := ← row.required "active_at"
      expiresAt := ← row.required "expires_at"
      updatedAt := ← row.required "updated_at"
      head := ← row.required "head"
      step := ← row.required "step"
      paths := ← row.required "paths"
      programs := ← row.required "programs"
      store := ← row.required "store"
      commits := ← row.required "commits"
      tasks := ← row.required "tasks"
      output := ← row.optional "output"
      error := ← row.optional "error"
      closed := ← row.required "closed"
      closedAt := ← row.optional "closed_at" }

def pathState? (m : Machine) (label : String) : Option PathState := m.paths.find? label

/-- The first path under dispute other than the given one. -/
def disputedOther? (m : Machine) (except : String) : Option String :=
  (m.paths.entries.find? fun e => decide (e.2 = .disputed) && decide (e.1 ≠ except)).map Prod.fst

def endorsedBy? (m : Machine) (action : Action) (path : String) : Option (SortedSet PublicKey) :=
  (m.store.find? path).bind (·.find? action)

end Machine

end JointEscrow
