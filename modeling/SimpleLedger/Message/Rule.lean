import SimpleLedger.Message
import SimpleLedger.Message.Error

namespace SimpleLedger.Rule

/-- A quantity is eight bytes, the highest first. -/
def quantity (field : String) (bytes : Bytes) : Except DecodeError UInt64 :=
  if bytes.length = 8 then .ok (UInt64.ofNat (Bytes.bigEndian bytes))
  else .error (.invalidQuantityEncoding field bytes.length)

/-- The decimals are one byte of at most nine. -/
def decimals : Bytes → Except DecodeError UInt8
  | [n] => if n ≤ 9 then .ok n else .error (.invalidDecimals s!"{n.toNat} is greater than 9")
  | bytes => .error (.invalidDecimals s!"field is {bytes.length} bytes (must be 1)")

/-- The mint baton goes to no output, or to one after the first token output. -/
def mintBaton : Bytes → Except DecodeError (Option UInt8)
  | [] => .ok none
  | [vout] =>
    if 2 ≤ vout then .ok (some vout) else .error (.invalidMintBaton s!"vout {vout.toNat} is below 2")
  | bytes => .error (.invalidMintBaton s!"field is {bytes.length} bytes (must be 0 or 1)")

/-- A token id is 32 bytes. -/
def tokenId (bytes : Bytes) : Except DecodeError TokenId :=
  match TokenId.ofBytes? bytes with
  | some id => .ok id
  | none => .error (.invalidTokenId bytes.length)

/-- A document hash is empty or 32 bytes. -/
def documentHash (bytes : Bytes) : Except DecodeError Bytes :=
  if bytes.length = 0 ∨ bytes.length = 32 then .ok bytes
  else .error (.invalidHashLength bytes.length)

/-- A code in lower-case hexadecimal, with at least two digits. -/
def hexCode (code : Nat) : String :=
  "0x" ++ String.ofList (if code < 16 then '0' :: Nat.toDigits 16 code else Nat.toDigits 16 code)

/-- A token type is one byte, or two with the highest first. -/
def tokenType (bytes : Bytes) : Except DecodeError TokenType :=
  if bytes.length = 1 ∨ bytes.length = 2 then
    let code := Bytes.bigEndian bytes
    match TokenType.ofCode? code with
    | some t => .ok t
    | none => .error (.unsupportedTokenType (hexCode code))
  else .error (.unsupportedTokenType s!"{bytes.length}-byte token type field (must be 1 or 2)")

/-- A tag is echoed in an error if it has one to sixteen visible ASCII characters. -/
def describeTag (tag : Bytes) : String :=
  if tag.length ≠ 0 ∧ tag.length ≤ 16 ∧ tag.all (fun b => 0x21 ≤ b && b ≤ 0x7e) then
    "\"" ++ String.ofList (tag.map fun b => Char.ofNat b.toNat) ++ "\""
  else s!"<{tag.length} bytes>"

/-- A transaction type is given by its exact tag. -/
def transactionType (tag : Bytes) : Except DecodeError TransactionType :=
  match TransactionType.ofTag? tag with
  | some t => .ok t
  | none => .error (.unknownTransactionType (describeTag tag))

/-- A genesis of a single non-fungible token has no decimals, no baton and a quantity of one. -/
def childGenesis (genesis : Genesis) : Except DecodeError Genesis :=
  if genesis.decimals ≠ 0 then .error (.invalidNft1Child "decimals must be 0")
  else if genesis.mintBatonVout.isSome then
    .error (.invalidNft1Child "must not create a mint baton")
  else if genesis.initialQuantity ≠ 1 then .error (.invalidNft1Child "quantity must be 1")
  else .ok genesis

/-- A send has one to nineteen quantities. -/
def outputQuantities (quantities : List UInt64) : Except DecodeError (List UInt64) :=
  if quantities.length = 0 then .error .tooFewOutputs
  else if 19 < quantities.length then .error (.tooManyOutputs quantities.length)
  else .ok quantities

end SimpleLedger.Rule
