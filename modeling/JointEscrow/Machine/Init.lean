import JointEscrow.Machine.Error
import JointEscrow.Terms.Validity

/-!
# Starting a machine

A machine starts with every declared path open, the schedule as tasks in due order, and the digest
of its configuration as head.
-/

namespace JointEscrow

/-- The label of the engine that this library describes. -/
def engineLabel : String := "escrow-vm/1"

/-- A program that the engine can run: a known method, and valid terms. -/
def ProgramTerms.checkSupported (p : ProgramTerms) (labels : List String) :
    Except TermsError Unit := do
  ensure (p.method ∈ Method.all) (.unknownMethod p.method.name)
  p.validate labels

namespace MachineConfig

def genesis (c : MachineConfig) : Digest := .ofValue c

/-- The seconds from activation to expiry. -/
def duration (c : MachineConfig) : UInt64 := c.expiresAt - c.activeAt

def declare (paths : SortedMap String PathState) (label : String) :
    Except MachineError (SortedMap String PathState) :=
  if label.isEmpty then .error (.terms (.missingField "path"))
  else if (paths.find? label).isSome then .error (.duplicatePath label)
  else .ok (paths.insert label .open)

/-- The schedule with absolute times. A stamp is at most the duration, so no time exceeds the
expiry. -/
def tasks (c : MachineConfig) : List Task :=
  (c.schedule.map fun e => ⟨c.activeAt + e.stamp, e.action, e.path⟩).mergeSort
    fun a b => a.due ≤ b.due

end MachineConfig

namespace Machine

/-- The first state of a machine, whatever engine its configuration names. -/
def init (c : MachineConfig) : Except MachineError Machine := do
  ensure (!c.pathnames.isEmpty) .noPaths
  let paths ← c.pathnames.foldlM MachineConfig.declare .empty
  ensure (c.activeAt < c.expiresAt) (.emptySpan c.expiresAt c.activeAt)
  (c.programs.forM (·.validate c.pathnames)).mapError .terms
  (c.schedule.forM (·.validate c.pathnames c.duration)).mapError .terms
  return {
    vmid := c.vmid
    engine := c.engine
    activeAt := c.activeAt
    expiresAt := c.expiresAt
    updatedAt := c.activeAt
    head := c.genesis
    step := 0
    paths := paths
    programs := c.programs.map .ofTerms
    store := .empty
    commits := []
    tasks := c.tasks
    output := none
    error := none
    closed := false
    closedAt := none }

def start (c : MachineConfig) : Except MachineError Machine := do
  ensure (c.engine = engineLabel) (.wrongEngine c.engine engineLabel)
  init c

end Machine

end JointEscrow
