import JointEscrow.Keys

/-!
# What is wrong with terms

The causes for which a proposal, a program, a schedule entry, a witness or a text in one of them is
refused, with their wording.
-/

namespace JointEscrow

inductive TermsError where
  | missingField (field : String)
  | invalidAmount (field : String) (value : UInt64)
  | pathTotalMismatch (path : String) (total expected : UInt64)
  | amountOverflow (field : String)
  | unknownPath (path : String)
  | unknownAction (name : String)
  | unknownMethod (name : String)
  | invalidPattern (text : String)
  | invalidThreshold (threshold : UInt32) (members : Nat)
  | duplicateMember (key : PublicKey)
  | duplicateEndorsement (key : PublicKey)
  | scheduleOutOfRange (stamp duration : UInt64)
  | outOfBounds (field : String) (value low high : UInt64)
  | invalidSignature (key : PublicKey)
  | invalidHex (field : String) (reason : Hex.Error)
  | invalidAddress (address : String)
  | unacceptedNetwork (network : String)
  | shortTemplate (size : Nat)
  deriving DecidableEq, Repr

def TermsError.message : TermsError → String
  | .missingField f => s!"missing required field: {f}"
  | .invalidAmount f v => s!"invalid amount for {f}: {v}"
  | .pathTotalMismatch p t e => s!"path '{p}' totals {t} with payments, expected {e}"
  | .amountOverflow f => s!"amounts for {f} overflow"
  | .unknownPath p => s!"unknown path referenced: {p}"
  | .unknownAction n => s!"unknown action: {n}"
  | .unknownMethod n => s!"unknown method: {n}"
  | .invalidPattern t => s!"invalid pattern: '{t}'"
  | .invalidThreshold t m => s!"invalid threshold {t} for {m} permitted signers"
  | .duplicateMember k => s!"duplicate program member: {k.hex}"
  | .duplicateEndorsement k => s!"duplicate endorsement from: {k.hex}"
  | .scheduleOutOfRange s d => s!"schedule stamp {s} exceeds contract duration {d}"
  | .outOfBounds f v low high => s!"{f} out of bounds: {v} not in [{low}, {high}]"
  | .invalidSignature k => s!"invalid signature from pubkey: {k.hex}"
  | .invalidHex f r => s!"invalid hex for {f}: {r.message}"
  | .invalidAddress a => s!"invalid address '{a}': expected a non-empty alphanumeric address"
  | .unacceptedNetwork n => s!"network '{n}' is not accepted by this server"
  | .shortTemplate n => s!"spend template too short: {n} bytes"

end JointEscrow
