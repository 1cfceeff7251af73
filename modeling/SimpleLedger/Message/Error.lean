namespace SimpleLedger

/-- The reasons for which a script is no token message, or a faulty one. -/
inductive DecodeError where
  | malformedScript (detail : String)
  | notSlp (detail : String)
  | unsupportedTokenType (detail : String)
  | unknownTransactionType (detail : String)
  | unsupportedTransactionType (detail : String)
  | missingField (name : String)
  | trailingData (transactionType : String) (count : Nat)
  | invalidDecimals (detail : String)
  | invalidHashLength (length : Nat)
  | invalidTokenId (length : Nat)
  | invalidMintBaton (detail : String)
  | tooFewOutputs
  | tooManyOutputs (count : Nat)
  | invalidQuantityEncoding (field : String) (length : Nat)
  | invalidNft1Child (detail : String)
deriving DecidableEq

namespace DecodeError

/-- The name of the kind of error, whatever its payload. -/
def kind : DecodeError → String
  | malformedScript _ => "MalformedScript"
  | notSlp _ => "NotSlp"
  | unsupportedTokenType _ => "UnsupportedTokenType"
  | unknownTransactionType _ => "UnknownTransactionType"
  | unsupportedTransactionType _ => "UnsupportedTransactionType"
  | missingField _ => "MissingField"
  | trailingData _ _ => "TrailingData"
  | invalidDecimals _ => "InvalidDecimals"
  | invalidHashLength _ => "InvalidHashLength"
  | invalidTokenId _ => "InvalidTokenId"
  | invalidMintBaton _ => "InvalidMintBaton"
  | tooFewOutputs => "TooFewOutputs"
  | tooManyOutputs _ => "TooManyOutputs"
  | invalidQuantityEncoding _ _ => "InvalidQuantityEncoding"
  | invalidNft1Child _ => "InvalidNft1Child"

def message : DecodeError → String
  | malformedScript detail => "Malformed script: " ++ detail
  | notSlp detail => "Not an SLP message: " ++ detail
  | unsupportedTokenType detail => "Unsupported token type: " ++ detail
  | unknownTransactionType detail => "Unknown transaction type: " ++ detail
  | unsupportedTransactionType detail => "Unsupported transaction type: " ++ detail
  | missingField name => "Missing field: " ++ name
  | trailingData transactionType count =>
    s!"Trailing data: {count} unexpected element(s) after {transactionType} fields"
  | invalidDecimals detail => "Invalid decimals: " ++ detail
  | invalidHashLength length => s!"Invalid document hash length: {length} bytes (must be 0 or 32)"
  | invalidTokenId length => s!"Invalid token id length: {length} bytes (must be 32)"
  | invalidMintBaton detail => "Invalid mint baton vout: " ++ detail
  | tooFewOutputs => "SEND has no token output quantities"
  | tooManyOutputs count => s!"SEND has {count} token output quantities (maximum 19)"
  | invalidQuantityEncoding field length =>
    s!"Invalid quantity encoding for {field}: {length} bytes (must be 8)"
  | invalidNft1Child detail => "Invalid NFT1 child message: " ++ detail

/-- Whether the script is no token message at all. -/
def isNotSlp : DecodeError → Bool
  | notSlp _ => true
  | _ => false

end DecodeError

end SimpleLedger
