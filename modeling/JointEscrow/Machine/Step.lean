import JointEscrow.Machine.Init

/-!
# Accepting a witness

`apply` accepts a witness as a whole or refuses it with a cause; `eval` keeps the machine and notes
the refusal instead. An accepted witness adds one link to the log and either leaves its keys with
the pending action or, once a program is satisfied, moves the path.
-/

namespace JointEscrow

namespace Machine

/-- The machine with one more link in its log; `none` when the step counter is at its end. -/
def commit (m : Machine) (wid : Digest) (stamp : UInt64) : Option Machine := do
  let step ← addChecked m.step 1
  return { m with
    commits := m.commits ++ [⟨m.step, stamp, wid, m.head⟩]
    head := .chain m.head wid
    step := step
    updatedAt := stamp }

/-- The machine with a path moved to a state and its pending endorsements dropped. A path that
closes while no other is disputed closes the machine. -/
def settle (m : Machine) (label : String) (goal : PathState) (stamp : UInt64) : Machine :=
  let m := { m with paths := m.paths.insert label goal, store := m.store.erase label }
  if goal = .closed ∧ m.disputedOther? label = none then
    { m with output := some label, closed := true, closedAt := some stamp }
  else m

/-- The disputed path that keeps an action on another path back: nothing closes and no second
dispute opens while one is pending. -/
def contestedBy? (m : Machine) (action : Action) (path : String) : Option String :=
  match action with
  | .close | .dispute => m.disputedOther? path
  | _ => none

/-- The keys with all of the signers added, unless one is there already. -/
def addSigners (keys : SortedSet PublicKey) :
    List PublicKey → Except PublicKey (SortedSet PublicKey)
  | [] => .ok keys
  | k :: r => if k ∈ keys then .error k else addSigners (keys.insert k) r

def record (store : Collected) (path : String) (action : Action) (keys : SortedSet PublicKey) :
    Collected :=
  store.insert path (((store.find? path).getD .empty).insert action keys)

/-- The checks that come before the path is looked up. -/
def checkRequest (m : Machine) (w : Witness) : Except Refusal Unit := do
  ensure (w.vmid = m.vmid) (.wrongMachine m.vmid w.vmid)
  ensure (w.step = m.step) (.staleStep m.step w.step)
  w.validate.mapError .invalid
  ensure (m.updatedAt ≤ w.stamp) (.state (.early w.stamp m.updatedAt))
  ensure (w.stamp < m.expiresAt) (.state (.expired m.expiresAt))
  match m.tasks with
  | t :: _ => ensure (w.stamp < t.due) (.state (.taskFirst t.action t.due))
  | [] => return

/-- Every signature verifies and every signer is permitted by a program that grants the action. -/
def checkAuthority (m : Machine) (w : Witness) : Except Refusal Unit := do
  w.checkSignatures.mapError fun e => .unauthorized (.signature e)
  let granting := Program.granting m.programs w.method w.action w.path
  ensure (!granting.isEmpty) (.unauthorized (.noProgram w.method w.action w.path))
  w.signers.forM fun k =>
    ensure (granting.any (·.permits k)) (.unauthorized (.notPermitted k w.action w.path))

/-- The state that the path is to move to and all keys that have then endorsed the action. -/
def check (m : Machine) (w : Witness) : Except Refusal (PathState × SortedSet PublicKey) := do
  m.checkRequest w
  match m.pathState? w.path with
  | none => .error (.invalid (.unknownPath w.path))
  | some current =>
    m.checkAuthority w
    match current.next? w.action with
    | none => .error (.state (.inadmissible w.action w.path current))
    | some target =>
      match m.contestedBy? w.action w.path with
      | some other => .error (.state (.contested other))
      | none =>
        match addSigners ((m.endorsedBy? w.action w.path).getD .empty) w.signers with
        | .error k => .error (.unauthorized (.repeated k w.action w.path))
        | .ok keys => .ok (target, keys)

/-- The machine after a witness, or the cause of its refusal. A closed machine ignores it. -/
def apply (m : Machine) (w : Witness) : Except (Halt Refusal) Machine :=
  if m.closed then .ok m
  else match m.check w with
    | .error e => .error (.cause e)
    | .ok (target, keys) =>
      match { m with error := none }.commit w.id w.stamp with
      | none => .error .overflow
      | some next =>
        let next := { next with store := record next.store w.path w.action keys }
        if (Program.firstSatisfied m.programs w.method w.action w.path keys).isSome then
          .ok (next.settle w.path target w.stamp)
        else .ok next

/-- The machine after a witness; a refused one leaves it as it was, with the refusal noted. There is
none when the step counter is at its end. -/
def eval (m : Machine) (w : Witness) : Option Machine :=
  match m.apply w with
  | .ok next => some next
  | .error .overflow => none
  | .error (.cause e) => some { m with error := some e.message }

end Machine

end JointEscrow
