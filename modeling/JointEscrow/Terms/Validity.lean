import JointEscrow.Sorted.Distinct
import JointEscrow.Terms.Totals

/-!
# Valid terms

The structural checks of a proposal, in the order in which faults are reported: title, value,
duration, path entries, payments, the total of every label, programs, schedule. A server's own
bounds are checked apart from these.
-/

namespace JointEscrow

/-- Refuses with a cause when a condition fails. -/
def ensure {ε : Type} (ok : Bool) (e : ε) : Except ε Unit := if ok then .ok () else .error e

/-- Every token of the pattern is a declared label. -/
def Pattern.checkLabels (p : Pattern) (labels : List String) : Except TermsError Unit :=
  p.literals.forM fun t => ensure (t ∈ labels) (.unknownPath t)

namespace ProgramTerms

/-- A program that can be met: known actions, declared labels, distinct members, and a threshold
from one to the number of members, if there are any. -/
def validate (p : ProgramTerms) (labels : List String) : Except TermsError Unit := do
  p.actions.literals.forM fun t => ensure (Action.ofName? t).isSome (.unknownAction t)
  p.paths.checkLabels labels
  match firstRepeat? p.members with
  | some key => .error (.duplicateMember key)
  | none =>
    ensure (p.threshold ≠ 0 && (p.members.isEmpty || p.threshold.toNat ≤ p.members.length))
      (.invalidThreshold p.threshold p.members.length)

end ProgramTerms

namespace ScheduleEntry

/-- An entry that is due within the contract's duration, on declared labels. -/
def validate (e : ScheduleEntry) (labels : List String) (duration : UInt64) :
    Except TermsError Unit := do
  ensure (e.stamp ≤ duration) (.scheduleOutOfRange e.stamp duration)
  e.path.checkLabels labels

end ScheduleEntry

namespace PathEntry

def validate (e : PathEntry) : Except TermsError Unit := do
  ensure (!e.path.isEmpty) (.missingField "path label")
  ensure (e.value ≠ 0) (.invalidAmount s!"path '{e.path}'" 0)

end PathEntry

namespace Payment

def validate (p : Payment) : Except TermsError Unit :=
  ensure (p.value ≠ 0) (.invalidAmount s!"payment to '{p.address}'" 0)

end Payment

namespace Proposal

/-- Every label with the payments adds up to the proposal's value. -/
def checkTotals (p : Proposal) : Except TermsError Unit := do
  let payments ← paymentTotal p.payments
  (← pathTotals p.paths).forM fun (label, total) =>
    match addChecked total payments with
    | none => .error (.amountOverflow label)
    | some sum => ensure (sum = p.value) (.pathTotalMismatch label sum p.value)

def validate (p : Proposal) : Except TermsError Unit := do
  ensure (!Text.allBlank p.title) (.missingField "title")
  ensure (p.value ≠ 0) (.invalidAmount "value" 0)
  ensure (p.duration ≠ 0) (.invalidAmount "duration" 0)
  ensure (!p.paths.isEmpty) (.missingField "paths")
  p.paths.forM (·.validate)
  p.payments.forM (·.validate)
  p.checkTotals
  let labels := pathLabels p.paths
  p.programs.forM (·.validate labels)
  p.schedule.forM (·.validate labels p.duration)

end Proposal

end JointEscrow
