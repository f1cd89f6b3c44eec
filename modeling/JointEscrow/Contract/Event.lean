import JointEscrow.Contract.Record

/-!
# Events

What a change of a contract tells the listeners of its host. An event is written as an object that
starts with its kind. It is read from an object with the kind anywhere, or from a list of the kind
and then either all fields; since the kind decides how the rest is read, every part of the text must
denote something and nesting is limited.
-/

namespace JointEscrow

inductive Event where
  | published (cid : Digest)
  | funded (cid : Digest) (fundValue fundPend txTotal : UInt64)
  | canceled (cid : Digest) (at_ : UInt64)
  | activated (cid vmid : Digest) (activeAt expiresAt : UInt64)
  | closed (cid head : Digest) (output : Option String) (at_ : UInt64)
  | spent (cid txid : Digest) (at_ : UInt64)
  | settled (cid : Digest) (at_ : UInt64)
  deriving DecidableEq, Repr

namespace Event

/-- The fields of an event of a kind, from a value that holds them without the kind. -/
def ofFields? (kind : String) (j : Json) : Option Event :=
  match kind with
  | "published" => do
    let row ← Row.ofJson? ["cid"] 1 j
    return .published (← row.required "cid")
  | "funded" => do
    let row ← Row.ofJson? ["cid", "fund_value", "fund_pend", "tx_total"] 4 j
    return .funded (← row.required "cid") (← row.required "fund_value")
      (← row.required "fund_pend") (← row.required "tx_total")
  | "canceled" => do
    let row ← Row.ofJson? ["cid", "at"] 2 j
    return .canceled (← row.required "cid") (← row.required "at")
  | "activated" => do
    let row ← Row.ofJson? ["cid", "vmid", "active_at", "expires_at"] 4 j
    return .activated (← row.required "cid") (← row.required "vmid") (← row.required "active_at")
      (← row.required "expires_at")
  | "closed" => do
    let row ← Row.ofJson? ["cid", "head", "output", "at"] 4 j
    return .closed (← row.required "cid") (← row.required "head") (← row.optional "output")
      (← row.required "at")
  | "spent" => do
    let row ← Row.ofJson? ["cid", "txid", "at"] 3 j
    return .spent (← row.required "cid") (← row.required "txid") (← row.required "at")
  | "settled" => do
    let row ← Row.ofJson? ["cid", "at"] 2 j
    return .settled (← row.required "cid") (← row.required "at")
  | _ => none

def splitKind? : Json → Option (Json × Json)
  | .obj members =>
    match members.filter fun m => m.1 = "type" with
    | [(_, kind)] => some (kind, .obj (members.filter fun m => m.1 ≠ "type"))
    | _ => none
  | .arr (kind :: items) => some (kind, .arr items)
  | _ => none

instance : JsonForm Event where
  toJson
    | .published cid => .obj [("type", toJson "published"), ("cid", toJson cid)]
    | .funded cid value pend total => .obj [("type", toJson "funded"), ("cid", toJson cid),
        ("fund_value", toJson value), ("fund_pend", toJson pend), ("tx_total", toJson total)]
    | .canceled cid at_ => .obj [("type", toJson "canceled"), ("cid", toJson cid), ("at", toJson at_)]
    | .activated cid vmid activeAt expiresAt => .obj [("type", toJson "activated"),
        ("cid", toJson cid), ("vmid", toJson vmid), ("active_at", toJson activeAt),
        ("expires_at", toJson expiresAt)]
    | .closed cid head output at_ => .obj [("type", toJson "closed"), ("cid", toJson cid),
        ("head", toJson head), ("output", toJson output), ("at", toJson at_)]
    | .spent cid txid at_ => .obj [("type", toJson "spent"), ("cid", toJson cid),
        ("txid", toJson txid), ("at", toJson at_)]
    | .settled cid at_ => .obj [("type", toJson "settled"), ("cid", toJson cid), ("at", toJson at_)]
  ofJson? j :=
    if j.readable ∧ j.depth ≤ Json.depthLimit then do
      let (kind, rest) ← splitKind? j
      match kind with
      | .str kind => ofFields? kind rest
      | _ => none
    else none

end Event

end JointEscrow
