import SimpleLedger.Bytes

namespace SimpleLedger.Script

/-- A push of literal bytes, or any other opcode, `0x00` included. -/
inductive Element where
  | push (data : Bytes)
  | op (code : UInt8)
deriving DecidableEq

/-- The bytes of a script break off inside a push: in the count of bytes that it announces, or in
its data. Offsets count from the start of the script. -/
inductive Fault where
  | truncatedLength (width offset : Nat)
  | overrun (length offset remaining : Nat)
deriving DecidableEq

namespace Fault

/-- What is said of a fault. -/
def detail : Fault → String
  | truncatedLength width offset =>
    s!"truncated {width}-byte pushdata length at offset {offset}"
  | overrun length offset remaining =>
    s!"push of {length} bytes at offset {offset} exceeds remaining {remaining} bytes"

end Fault

/-- What an opcode announces: data whose length is the opcode itself, data whose length follows in
`width` bytes, lowest first, or nothing. -/
inductive Announcement where
  | direct (length : Nat)
  | counted (width : Nat)
  | bare
deriving DecidableEq

/-- The announcement an opcode makes. -/
def announce (opcode : UInt8) : Announcement :=
  if 0x01 ≤ opcode ∧ opcode ≤ 0x4b then .direct opcode.toNat
  else if opcode = 0x4c then .counted 1
  else if opcode = 0x4d then .counted 2
  else if opcode = 0x4e then .counted 4
  else .bare

end SimpleLedger.Script
