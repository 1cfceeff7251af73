import SimpleLedger.Json
import SimpleLedger.Bytes.Hex
import SimpleLedger.Text.Blank
import SimpleLedger.Text.Shown
import SimpleLedger.Message.Reader

namespace SimpleLedger

/-- What is said of a script: the message it holds, or why there is none. -/
inductive Verdict where
  | accepted (message : Message)
  | refused (kind text : String)
deriving DecidableEq

namespace Verdict

/-- The output of a mint baton, or null. -/
def batonJson : Option UInt8 → Json
  | none => .null
  | some vout => .nat vout.toNat

/-- A quantity as a decimal string. -/
def quantityJson (quantity : UInt64) : Json :=
  .str (toString quantity.toNat)

/-- The members of a message's JSON that describe its action. -/
def actionMembers : Action → List (String × Json)
  | .genesis g =>
    [("symbol", .str (Hex.upper g.ticker)), ("name", .str (Hex.upper g.name)),
      ("documentUri", .str (Hex.upper g.documentUri)),
      ("documentSha256", .str (Hex.upper g.documentHash)),
      ("decimals", .nat g.decimals.toNat), ("batonVout", batonJson g.mintBatonVout),
      ("genesisOrMintQuantity", quantityJson g.initialQuantity)]
  | .mint m =>
    [("tokenIdHex", .str (Hex.lower m.tokenId.bytes)), ("batonVout", batonJson m.mintBatonVout),
      ("containsBaton", .bool m.mintBatonVout.isSome),
      ("genesisOrMintQuantity", quantityJson m.additionalQuantity)]
  | .send s =>
    [("tokenIdHex", .str (Hex.lower s.tokenId.bytes)),
      ("sendOutputs", .arr (s.outputQuantities.map quantityJson))]

def messageJson (message : Message) : Json :=
  .obj (("tokenType", .nat message.tokenType.code.toNat) ::
    ("transactionType", .str message.transactionType.name) :: actionMembers message.action)

def toJson : Verdict → Json
  | accepted message => .obj [("success", .bool true), ("data", messageJson message)]
  | refused kind text =>
    .obj [("success", .bool false), ("error", .str text), ("kind", .str kind)]

def ofResult : Except DecodeError Message → Verdict
  | .ok message => accepted message
  | .error e => refused e.kind e.message

def ofScript (script : Bytes) : Verdict :=
  ofResult (Message.ofScript script)

/-- What is said of a spelling that gives no bytes. -/
def hexFaultText : Hex.Fault → String
  | .oddLength => "Odd number of digits"
  | .badDigit code index =>
    s!"Invalid character {Text.shown (Char.ofNat code.toNat)} at position {index}"

/-- The verdict on a script in hexadecimal, with or without white space around it. -/
def ofHex (text : String) : Verdict :=
  match Hex.decode (Text.utf8 (Text.trim text.toList)) with
  | .ok script => ofScript script
  | .error fault => refused "InvalidHex" ("Invalid hex: " ++ hexFaultText fault)

end Verdict

end SimpleLedger
