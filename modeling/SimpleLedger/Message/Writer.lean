import SimpleLedger.Message
import SimpleLedger.Message.Marker
import SimpleLedger.Script.Push

namespace SimpleLedger

/-- The field of a mint baton: empty without one. -/
def batonField : Option UInt8 → Bytes
  | none => []
  | some vout => [vout]

def quantityField (quantity : UInt64) : Bytes :=
  Bytes.ofBigEndian 8 quantity.toNat

/-- The fields of an action, in order. -/
def Action.fields : Action → List Bytes
  | .genesis g =>
    [g.ticker, g.name, g.documentUri, g.documentHash, [g.decimals], batonField g.mintBatonVout,
      quantityField g.initialQuantity]
  | .mint m => [m.tokenId.bytes, batonField m.mintBatonVout, quantityField m.additionalQuantity]
  | .send s => s.tokenId.bytes :: s.outputQuantities.map quantityField

/-- All fields of a message: the token type in one byte, the tag, and the fields of the action. -/
def Message.fields (message : Message) : List Bytes :=
  [message.tokenType.code] :: message.transactionType.tag :: message.action.fields

def Message.toScript (message : Message) : Bytes :=
  returnOpcode :: (lokadId :: message.fields).flatMap Script.push

end SimpleLedger
