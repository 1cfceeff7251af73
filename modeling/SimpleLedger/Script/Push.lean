import SimpleLedger.Script.Element

namespace SimpleLedger.Script

/-- The announcement of a push in the fewest bytes. An empty push is announced by `0x4c`, and a
length that takes more than two bytes is written modulo `2 ^ 32`. -/
def pushHeader (length : Nat) : Bytes :=
  if 1 ≤ length ∧ length ≤ 0x4b then [UInt8.ofNat length]
  else if length ≤ 0xff then 0x4c :: Bytes.ofLittleEndian 1 length
  else if length ≤ 0xffff then 0x4d :: Bytes.ofLittleEndian 2 length
  else 0x4e :: Bytes.ofLittleEndian 4 length

/-- A push of literal bytes. -/
def push (data : Bytes) : Bytes :=
  pushHeader data.length ++ data

end SimpleLedger.Script
