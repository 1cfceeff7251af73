import SimpleLedger.Script.Token
import SimpleLedger.Message.Field
import SimpleLedger.Message.Marker
import SimpleLedger.Message.Rule

namespace SimpleLedger

open FieldReader (next nextBy rest check finish)

/-- Reads the fields of a genesis. What holds only for a single non-fungible token is checked last. -/
def Genesis.read (tokenType : TokenType) : FieldReader Genesis := do
  let ticker ← next "ticker"
  let name ← next "name"
  let documentUri ← next "document_uri"
  let documentHash ← nextBy "document_hash" Rule.documentHash
  let decimals ← nextBy "decimals" Rule.decimals
  let mintBatonVout ← nextBy "mint_baton_vout" Rule.mintBaton
  let initialQuantity ← nextBy "initial_quantity" (Rule.quantity "initial_quantity")
  let genesis : Genesis :=
    { ticker, name, documentUri, documentHash, decimals, mintBatonVout, initialQuantity }
  if tokenType = .nft1Child then check (Rule.childGenesis genesis) else pure genesis

/-- Reads the fields of a mint. A single non-fungible token is never minted. -/
def Mint.read (tokenType : TokenType) : FieldReader Mint := do
  if tokenType = .nft1Child then check (.error (.invalidNft1Child "MINT is not permitted"))
  let tokenId ← nextBy "token_id" Rule.tokenId
  let mintBatonVout ← nextBy "mint_baton_vout" Rule.mintBaton
  let additionalQuantity ← nextBy "additional_quantity" (Rule.quantity "additional_quantity")
  pure { tokenId, mintBatonVout, additionalQuantity }

/-- Reads the fields of a send: all that follow the token id are quantities. -/
def Send.read : FieldReader Send := do
  let tokenId ← nextBy "token_id" Rule.tokenId
  let fields ← rest
  let quantities ← check (fields.mapM (Rule.quantity "token_output_quantity"))
  let outputQuantities ← check (Rule.outputQuantities quantities)
  pure { tokenId, outputQuantities }

def Action.read (tokenType : TokenType) : TransactionType → FieldReader Action
  | .genesis => .genesis <$> Genesis.read tokenType
  | .mint => .mint <$> Mint.read tokenType
  | .send => .send <$> Send.read
  | .commit => check (.error (.unsupportedTransactionType (TransactionType.name .commit)))

def Message.read : FieldReader Message := do
  let tokenType ← nextBy "token_type" Rule.tokenType
  let transactionType ← nextBy "transaction_type" Rule.transactionType
  let action ← Action.read tokenType transactionType
  finish transactionType.name
  pure { tokenType, action }

/-- The field that a token after the marker pushes. Nothing but pushes is allowed there. -/
def Script.Token.field (token : Script.Token) : Except DecodeError Bytes :=
  match token.content with
  | .ok (.push data) => .ok data
  | .ok (.op code) =>
    .error (.malformedScript
      s!"opcode {Rule.hexCode code.toNat} at offset {token.start} is not permitted in an SLP message")
  | .error fault => .error (.malformedScript fault.detail)

/-- The fields that follow the marker of a message. Anything wrong before the end of the marker
only means that the script is no message. -/
def Script.fields (script : Bytes) : Except DecodeError (List Bytes) :=
  match Script.tokens script with
  | ⟨_, _, .ok (.op code)⟩ :: after =>
    if code = returnOpcode then
      match after with
      | ⟨_, _, .ok (.push data)⟩ :: fields =>
        if data = lokadId then fields.mapM Script.Token.field else .error noMarker
      | _ => .error noMarker
    else .error noReturn
  | _ => .error noReturn
where
  noReturn : DecodeError := .notSlp "script does not begin with OP_RETURN"
  noMarker : DecodeError := .notSlp "missing SLP LOKAD id"

/-- The message that a script holds. -/
def Message.ofScript (script : Bytes) : Except DecodeError Message := do
  let fields ← Script.fields script
  (Message.read.on fields).1

end SimpleLedger
