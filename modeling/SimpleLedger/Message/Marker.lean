import SimpleLedger.Bytes

namespace SimpleLedger

/-- The opcode of an output that cannot be spent. -/
def returnOpcode : UInt8 := 0x6a

/-- The id of token messages, pushed right after the opcode. -/
def lokadId : Bytes := [0x53, 0x4c, 0x50, 0x00]

end SimpleLedger
