import JointEscrow.Notary.Proof

/-!
# Logs of proofs

A log holds one proof per status in the order in which the statuses were reached. An entry is added
at the end, or takes the place of the last one when it proves the same status anew; nothing before
the last entry ever changes.
-/

namespace JointEscrow

/-- The proofs of the statuses reached so far, in order. -/
abbrev ProofLog (σ : Type) := List (ProofEntry σ)

namespace ProofLog

variable {σ : Type} [DecidableEq σ]

def get? (log : ProofLog σ) (status : σ) : Option (ProofEntry σ) :=
  log.find? fun e => e.status = status

def latest? (log : ProofLog σ) : Option (ProofEntry σ) := log.getLast?

/-- The log with an entry added, or with the last entry replaced if it has the same status; `none`
when an earlier entry has it. -/
def update? : ProofLog σ → ProofEntry σ → Option (ProofLog σ)
  | [], e => some [e]
  | [last], e => if last.status = e.status then some [e] else some [last, e]
  | first :: rest, e => if first.status = e.status then none else (update? rest e).map (first :: ·)

/-- The updated log; the refused status is shown by its name. -/
def update (name : σ → String) (log : ProofLog σ) (e : ProofEntry σ) :
    Except NotaryError (ProofLog σ) :=
  match log.update? e with
  | some l => .ok l
  | none => .error (.rewriteHistory (name e.status))

/-- A call that updates the log in its place: what it answers, and the log that it leaves. The first
entry with the status decides, wherever it stands. -/
def submit (name : σ → String) (log : ProofLog σ) (e : ProofEntry σ) :
    Except NotaryError Unit × ProofLog σ :=
  match log.findIdx? fun x => x.status = e.status with
  | none => (.ok (), log ++ [e])
  | some i =>
    if i + 1 = log.length then (.ok (), log.set i e)
    else (.error (.rewriteHistory (name e.status)), log)

end ProofLog

end JointEscrow
