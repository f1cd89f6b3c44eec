import JointEscrow.Number.Amount
import JointEscrow.Terms.Proposal

/-!
# Labels, addresses and totals

What a list of path entries names and adds up to. Labels and addresses come once each, in ascending
order; a total that leaves the 64-bit range is refused under the name of what was summed.
-/

namespace JointEscrow

/-- The sum of amounts, refused under a name if it does not fit. -/
def totalOf (values : List UInt64) (field : String) : Except TermsError UInt64 :=
  match sumChecked values with
  | some total => .ok total
  | none => .error (.amountOverflow field)

def entriesOf (label : String) (paths : List PathEntry) : List PathEntry :=
  paths.filter fun e => e.path = label

/-- The labels, each once, in ascending order. -/
def pathLabels (paths : List PathEntry) : List String :=
  (SortedSet.ofList (paths.map (·.path))).elements

/-- The payout addresses, each once, in ascending order. -/
def payoutAddresses (paths : List PathEntry) : List String :=
  (SortedSet.ofList (paths.map (·.address))).elements

def pathTotals (paths : List PathEntry) : Except TermsError (List (String × UInt64)) :=
  (pathLabels paths).mapM fun label => do
    return (label, ← totalOf ((entriesOf label paths).map (·.value)) label)

def paymentTotal (payments : List Payment) : Except TermsError UInt64 :=
  totalOf (payments.map (·.value)) "payments"

end JointEscrow
