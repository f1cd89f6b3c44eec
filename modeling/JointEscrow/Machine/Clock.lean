import JointEscrow.Machine.Step

/-!
# Advancing the clock

`run` fires every task that is due, in order, until the machine closes, and closes it at its expiry.
A task acts on the least matching path that is open and not kept back; without one it is used up
without effect.
-/

namespace JointEscrow

/-- What the log commits to when a task fires. -/
structure Firing where
  vmid : Digest
  action : Action
  path : String
  stamp : UInt64
  step : UInt64
  deriving DecidableEq, Repr

namespace Firing

/-- The word that stands where a witness has its method. -/
def method : String := "schedule"

instance : JsonForm Firing where
  toJson f := .obj [("vmid", toJson f.vmid), ("method", toJson method),
    ("action", toJson f.action), ("path", toJson f.path), ("stamp", toJson f.stamp),
    ("step", toJson f.step)]
  ofJson? j := do
    let row ← Row.ofJson? ["vmid", "method", "action", "path", "stamp", "step"] 6 j
    let word : String ← row.required "method"
    if word = method then
      return ⟨← row.required "vmid", ← row.required "action", ← row.required "path",
        ← row.required "stamp", ← row.required "step"⟩
    else none

def id (f : Firing) : Digest := .ofValue f

end Firing

namespace Machine

/-- The state that a task would move a path to, if it may act on it. -/
def taskTarget? (m : Machine) (t : Task) (label : String) (state : PathState) : Option PathState :=
  if t.path.admits label ∧ state = .open ∧ m.contestedBy? t.action label = none then
    state.next? t.action
  else none

/-- The least path that a task may act on, with the state it moves to. -/
def target? (m : Machine) (t : Task) : Option (String × PathState) :=
  m.paths.entries.findSome? fun (label, state) =>
    (m.taskTarget? t label state).map fun goal => (label, goal)

/-- The machine after a task has fired at its time; `none` when the step counter is at its end. -/
def fire (m : Machine) (t : Task) : Option Machine :=
  match m.target? t with
  | none => some m
  | some (label, goal) => do
    let wid := (Firing.mk m.vmid t.action label t.due m.step).id
    let next ← m.commit wid t.due
    return next.settle label goal t.due

/-- Fires the tasks that are due by `stop`, the first argument being those still waiting. -/
def fireDue (stop : UInt64) : List Task → Machine → Option Machine
  | [], m => some { m with tasks := [] }
  | t :: r, m =>
    if m.closed = false ∧ t.due ≤ stop ∧ t.due ≤ m.expiresAt then do
      let next ← m.fire t
      fireDue stop r { next with tasks := r }
    else some { m with tasks := t :: r }

/-- Closes an open machine whose time is over. -/
def expire (m : Machine) (stop : UInt64) : Machine :=
  if m.closed = false ∧ m.expiresAt ≤ stop then
    { m with
      closed := true
      closedAt := some m.expiresAt
      updatedAt := if m.updatedAt < m.expiresAt then m.expiresAt else m.updatedAt }
  else m

/-- The machine at a time. There is none when the step counter is at its end. -/
def run (m : Machine) (stop : UInt64) : Option Machine :=
  if m.closed then some m
  else do
    let next ← fireDue stop m.tasks { m with error := none }
    return next.expire stop

end Machine

end JointEscrow
