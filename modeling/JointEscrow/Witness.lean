import JointEscrow.Sorted.Distinct
import JointEscrow.Terms.Error
import JointEscrow.Terms.Action

/-!
# Witnesses

A witness asks for an action on a path of one machine at one step, with endorsements of that
request. Its identifier covers everything but the endorsements.
-/

namespace JointEscrow

/-- The part of a witness that the asking party chooses. -/
structure WitnessTemplate where
  method : Method
  action : Action
  path : String
  stamp : UInt64
  deriving DecidableEq, Repr

instance : JsonForm WitnessTemplate where
  toJson t := .obj [("method", toJson t.method), ("action", toJson t.action),
    ("path", toJson t.path), ("stamp", toJson t.stamp)]
  ofJson? j := do
    let row ← Row.ofJson? ["method", "action", "path", "stamp"] 4 j
    return ⟨← row.required "method", ← row.required "action", ← row.required "path",
      ← row.required "stamp"⟩

/-- A request with its endorsements. `step` is the machine's step that the signers saw. -/
structure Witness where
  vmid : Digest
  method : Method
  action : Action
  path : String
  stamp : UInt64
  step : UInt64
  endorsements : List Endorsement
  deriving DecidableEq, Repr

namespace Witness

instance : JsonForm Witness where
  toJson w := .obj [("vmid", toJson w.vmid), ("method", toJson w.method),
    ("action", toJson w.action), ("path", toJson w.path), ("stamp", toJson w.stamp),
    ("step", toJson w.step), ("endorsements", toJson w.endorsements)]
  ofJson? j := do
    let row ← Row.ofJson? ["vmid", "method", "action", "path", "stamp", "step", "endorsements"] 6 j
    return ⟨← row.required "vmid", ← row.required "method", ← row.required "action",
      ← row.required "path", ← row.required "stamp", ← row.required "step",
      ← row.withDefault "endorsements" []⟩

/-- What the signers of a witness sign: everything but the endorsements. -/
structure Request where
  vmid : Digest
  method : Method
  action : Action
  path : String
  stamp : UInt64
  step : UInt64
  deriving DecidableEq, Repr

instance : JsonForm Request where
  toJson r := .obj [("vmid", toJson r.vmid), ("method", toJson r.method),
    ("action", toJson r.action), ("path", toJson r.path), ("stamp", toJson r.stamp),
    ("step", toJson r.step)]
  ofJson? j := do
    let row ← Row.ofJson? ["vmid", "method", "action", "path", "stamp", "step"] 6 j
    return ⟨← row.required "vmid", ← row.required "method", ← row.required "action",
      ← row.required "path", ← row.required "stamp", ← row.required "step"⟩

def request (w : Witness) : Request := ⟨w.vmid, w.method, w.action, w.path, w.stamp, w.step⟩

def id (w : Witness) : Digest := .ofValue w.request

def signers (w : Witness) : List PublicKey := w.endorsements.map (·.pubkey)

/-- The witness of a template, without endorsements. -/
def ofTemplate (vmid : Digest) (step : UInt64) (t : WitnessTemplate) : Witness :=
  ⟨vmid, t.method, t.action, t.path, t.stamp, step, []⟩

/-- The witness with the key's endorsement last; an earlier one of the same key is dropped. -/
def endorse (w : Witness) (key : KeyPair) : Witness :=
  let e := Endorsement.create key w.id
  { w with endorsements := w.endorsements.filter (fun o => o.pubkey ≠ e.pubkey) ++ [e] }

/-- Refuses a witness without a path, without endorsements or with two of one key. -/
def validate (w : Witness) : Except TermsError Unit :=
  if w.path.isEmpty then .error (.missingField "path")
  else if w.endorsements.isEmpty then .error (.missingField "endorsements")
  else match firstRepeat? w.signers with
    | some key => .error (.duplicateEndorsement key)
    | none => .ok ()

/-- Every endorsement verifies over the identifier; the first that does not is named. -/
def checkSignatures (w : Witness) : Except TermsError Unit :=
  let id := w.id
  match w.endorsements.find? fun e => !e.verifies id with
  | some e => .error (.invalidSignature e.pubkey)
  | none => .ok ()

end Witness

end JointEscrow
