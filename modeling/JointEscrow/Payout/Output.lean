import JointEscrow.Terms.Error

/-!
# Outputs, deposits and templates

The plain transaction layout. An address stands for a 34-byte script, a list of outputs is encoded
as a length-prefixed template, and a template with one input per deposit has an identifier.
-/

namespace JointEscrow

/-- A list of bytes written as hexadecimal text. -/
def bytesOfJson? : Json → Option (List UInt8)
  | .str s => (Hex.decode s).toOption
  | _ => none

structure TxOutput where
  value : UInt64
  script : List UInt8
  deriving DecidableEq, Repr

instance : JsonForm TxOutput where
  toJson o := .obj [("value", toJson o.value), ("script", .str (Hex.encode o.script))]
  ofJson? j := do
    let row ← Row.ofJson? ["value", "script"] 2 j
    return ⟨← row.required "value", ← (row.lookup "script").bind bytesOfJson?⟩

/-- A deposit output that funds a contract. -/
structure Utxo where
  txid : Digest
  vout : UInt32
  value : UInt64
  script : List UInt8
  deriving DecidableEq, Repr

instance : JsonForm Utxo where
  toJson u := .obj [("txid", toJson u.txid), ("vout", toJson u.vout), ("value", toJson u.value),
    ("script", .str (Hex.encode u.script))]
  ofJson? j := do
    let row ← Row.ofJson? ["txid", "vout", "value", "script"] 4 j
    return ⟨← row.required "txid", ← row.required "vout", ← row.required "value",
      ← (row.lookup "script").bind bytesOfJson?⟩

/-- A letter or digit of ASCII; an address holds nothing else. -/
def isAddressChar (c : Char) : Bool := c.isAlphanum

def isAddress (address : String) : Bool := !address.isEmpty && address.toList.all isAddressChar

def addressScript (address : String) : Except TermsError (List UInt8) :=
  if isAddress address then
    .ok (0x51 :: 0x20 :: (Digest.ofBytes (utf8 address)).bytes.toList)
  else .error (.invalidAddress address)

def templateVersion : Nat := 2

/-- The bytes of one output: value, script length, script. -/
def TxOutput.encode (o : TxOutput) : List UInt8 :=
  littleEndian 8 o.value.toNat ++ littleEndian 4 o.script.length ++ o.script

/-- The unsigned template of a list of outputs: version, count, outputs, lock time. -/
def encodeTemplate (outputs : List TxOutput) : List UInt8 :=
  littleEndian 4 templateVersion ++ littleEndian 4 outputs.length
    ++ outputs.flatMap TxOutput.encode ++ littleEndian 4 0

/-- The bytes of one input: transaction, index, value. -/
def Utxo.encode (u : Utxo) : List UInt8 :=
  u.txid.bytes.toList ++ littleEndian 4 u.vout.toNat ++ littleEndian 8 u.value.toNat

/-- The bytes that the identifier of a settlement is the digest of. -/
def settlementBytes (template : List UInt8) (inputs : List Utxo) : List UInt8 :=
  template ++ inputs.flatMap Utxo.encode

/-- The identifier of a template with its inputs; a template has at least eight bytes. -/
def settlementId (template : List UInt8) (inputs : List Utxo) : Except TermsError Digest :=
  if template.length < 8 then .error (.shortTemplate template.length)
  else .ok (.ofBytes (settlementBytes template inputs))

end JointEscrow
