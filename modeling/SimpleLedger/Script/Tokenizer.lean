import SimpleLedger.Script.Token

namespace SimpleLedger.Script

/-- A reader of a script: the offset it has reached, the bytes from there on, and whether it has met
a fault. -/
structure Tokenizer where
  position : Nat
  ahead : Bytes
  failed : Bool

namespace Tokenizer

/-- The reader of a script before its first element. -/
def ofScript (script : Bytes) : Tokenizer :=
  ⟨0, script, false⟩

/-- The next element, or the fault that is met in its place, and the reader after it. Nothing comes
after a fault, nor at the end of the script. -/
def next : Tokenizer → Option (Except Fault Element) × Tokenizer
  | ⟨start, opcode :: bytes, false⟩ =>
    let token := (readToken start opcode bytes).1
    (some token.content,
      ⟨token.stop, (opcode :: bytes).drop (token.stop - start), !token.content.isOk⟩)
  | finished => (none, finished)

end Tokenizer

end SimpleLedger.Script
