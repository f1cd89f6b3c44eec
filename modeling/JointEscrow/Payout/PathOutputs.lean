import JointEscrow.Payout.Output
import JointEscrow.Terms.Totals

/-!
# The outputs of a path

A path pays its own entries and then every payment. Each group is sorted by value and address, so
the order in which entries are listed does not matter.
-/

namespace JointEscrow

def Payment.output (p : Payment) : Except TermsError TxOutput := do
  return ⟨p.value, ← addressScript p.address⟩

def sortPayments (ps : List Payment) : List Payment := ps.mergeSort Payment.le

/-- What a path pays on its own account. -/
def pathPayments (label : String) (paths : List PathEntry) : List Payment :=
  (entriesOf label paths).map fun e => ⟨e.value, e.address⟩

/-- The outputs of a path: its entries, then the payments, each group sorted. -/
def pathOutputs (label : String) (paths : List PathEntry) (payments : List Payment) :
    Except TermsError (List TxOutput) :=
  (sortPayments (pathPayments label paths) ++ sortPayments payments).mapM Payment.output

end JointEscrow
