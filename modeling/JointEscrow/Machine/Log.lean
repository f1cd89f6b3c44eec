import JointEscrow.Machine.Init

/-!
# Checking a log

The log of a machine holds together when its steps are consecutive, each link carries the head
before it, and the last head and the step counter are the machine's. `verifyFromGenesis` also wants
the log to start at step zero from the head of a configuration.
-/

namespace JointEscrow

namespace Machine

/-- The head after some links that are to follow `head` with steps from `first + i` on. -/
def followLinks (first : UInt64) (i : Nat) (head : Digest) :
    List Commit → Except (Halt MachineError) Digest
  | [] => .ok head
  | c :: r => do
    let expected ← addOrHalt first (UInt64.ofNat i)
    ensure (c.step = expected) (.cause (.brokenLog c.step (.wrongStep expected)))
    ensure (c.priorHead = head) (.cause (.brokenLog c.step (.unlinked c.priorHead head)))
    followLinks first (i + 1) (.chain head c.wid) r

def verifyLog (m : Machine) : Except (Halt MachineError) Unit :=
  match m.commits with
  | [] => ensure (m.step = 0) (.cause (.brokenLog m.step .stepsWithoutCommits))
  | first :: _ => do
    let head ← followLinks first.step 0 first.priorHead m.commits
    ensure (head = m.head) (.cause (.brokenLog m.step (.wrongHead head m.head)))
    let count ← addOrHalt first.step (UInt64.ofNat m.commits.length)
    ensure (count = m.step) (.cause (.brokenLog m.step .wrongCount))

/-- The head that the log starts from: the first link's, or the machine's own. -/
def startHead (m : Machine) : Digest :=
  match m.commits with
  | [] => m.head
  | first :: _ => first.priorHead

/-- Whether the first link, if there is one, has step zero. -/
def startsAtZero (m : Machine) : Bool :=
  match m.commits with
  | [] => true
  | first :: _ => decide (first.step = 0)

/-- Checks that the log holds together and starts from the configuration. -/
def verifyFromGenesis (c : MachineConfig) (m : Machine) : Except (Halt MachineError) Unit := do
  ensure (m.startHead = c.genesis && m.startsAtZero)
    (.cause (.brokenLog 0 (.wrongStart c.genesis)))
  m.verifyLog

end Machine

end JointEscrow
