import JointEscrow.Machine.State

/-!
# What a machine refuses

The causes for which a configuration is not accepted or a log does not hold together, and the
causes for which a witness is refused, with their wording.
-/

namespace JointEscrow

/-- Why a log does not hold together. -/
inductive LogFault where
  | stepsWithoutCommits
  | wrongStep (expected : UInt64)
  | unlinked (prior head : Digest)
  | wrongHead (computed recorded : Digest)
  | wrongCount
  | wrongStart (genesis : Digest)
  deriving DecidableEq, Repr

def LogFault.message : LogFault → String
  | .stepsWithoutCommits => "step counter advanced without commits"
  | .wrongStep n => s!"expected step {n}"
  | .unlinked prior head => s!"prior head {prior.short} does not link to {head.short}"
  | .wrongHead head recorded => s!"recomputed head {head.short} != recorded {recorded.short}"
  | .wrongCount => "step counter does not match commit count"
  | .wrongStart genesis => s!"chain does not start at genesis {genesis.short}"

/-- Why a configuration or a log is not accepted. -/
inductive MachineError where
  | wrongEngine (wanted label : String)
  | noPaths
  | duplicatePath (label : String)
  | emptySpan (expiresAt activeAt : UInt64)
  | terms (e : TermsError)
  | brokenLog (step : UInt64) (fault : LogFault)
  deriving DecidableEq, Repr

def MachineError.message : MachineError → String
  | .wrongEngine wanted label =>
    s!"invalid machine config: config targets engine '{wanted}', not '{label}'"
  | .noPaths => "invalid machine config: machine declares no paths"
  | .duplicatePath l => s!"invalid machine config: duplicate path '{l}'"
  | .emptySpan e a => s!"invalid machine config: expiry {e} must follow activation {a}"
  | .terms e => s!"invalid machine config: {e.message}"
  | .brokenLog step fault => s!"commit chain broken at step {step}: {fault.message}"

/-- Why the endorsements of a witness do not authorize it. -/
inductive AuthorityFault where
  | signature (e : TermsError)
  | noProgram (method : Method) (action : Action) (path : String)
  | notPermitted (key : PublicKey) (action : Action) (path : String)
  | repeated (key : PublicKey) (action : Action) (path : String)
  deriving DecidableEq, Repr

def AuthorityFault.message : AuthorityFault → String
  | .signature e => e.message
  | .noProgram m a p => s!"no program grants {m.name} {a.name} on '{p}'"
  | .notPermitted k a p => s!"{k.hex} may not {a.name} on '{p}'"
  | .repeated k a p => s!"{k.hex} already endorsed {a.name} on '{p}'"

/-- Why the state of the machine does not admit a witness. -/
inductive StateFault where
  | early (stamp updatedAt : UInt64)
  | expired (expiresAt : UInt64)
  | taskFirst (action : Action) (due : UInt64)
  | inadmissible (action : Action) (path : String) (current : PathState)
  | contested (other : String)
  deriving DecidableEq, Repr

def StateFault.message : StateFault → String
  | .early stamp at_ => s!"witness stamp {stamp} precedes last update {at_}"
  | .expired at_ => s!"machine expired at {at_}"
  | .taskFirst a due => s!"scheduled {a.name} due at {due} must run first"
  | .inadmissible a p c => s!"cannot {a.name} path '{p}' while {c.name}"
  | .contested other => s!"path '{other}' is under dispute"

/-- Why a witness is refused. -/
inductive Refusal where
  | wrongMachine (expected actual : Digest)
  | staleStep (expected actual : UInt64)
  | invalid (e : TermsError)
  | unauthorized (fault : AuthorityFault)
  | state (fault : StateFault)
  deriving DecidableEq, Repr

def Refusal.message : Refusal → String
  | .wrongMachine expected actual =>
    s!"witness targets machine {actual.short}, expected {expected.short}"
  | .staleStep expected actual =>
    s!"stale witness: machine is at step {expected}, witness signed step {actual}"
  | .invalid e => s!"invalid witness: {e.message}"
  | .unauthorized f => s!"unauthorized: {f.message}"
  | .state f => s!"invalid state: {f.message}"

/-- The class of a refusal, as logs group them. -/
def Refusal.kind : Refusal → String
  | .invalid _ => "validation"
  | .unauthorized _ => "authorization"
  | .wrongMachine _ _ | .staleStep _ _ | .state _ => "state"

end JointEscrow
