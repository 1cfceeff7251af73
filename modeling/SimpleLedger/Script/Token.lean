import SimpleLedger.Script.Element

namespace SimpleLedger.Script

/-- One token of a script: an element, or the fault at which reading ends. -/
structure Token where
  start : Nat
  stop : Nat
  content : Except Fault Element

/-- The token of a push whose `length` data bytes begin at `offset`, and the bytes after it. -/
def readData (start offset length : Nat) (bytes : Bytes) : Token × Bytes :=
  match Bytes.split? length bytes with
  | some (data, rest) => (⟨start, offset + length, .ok (.push data)⟩, rest)
  | none => (⟨start, offset, .error (.overrun length offset bytes.length)⟩, [])

/-- The token that an opcode at `start` begins, and the bytes after it. -/
def readToken (start : Nat) (opcode : UInt8) (bytes : Bytes) : Token × Bytes :=
  match announce opcode with
  | .direct length => readData start (start + 1) length bytes
  | .counted width =>
    match Bytes.split? width bytes with
    | some (count, rest) => readData start (start + 1 + width) (Bytes.littleEndian count) rest
    | none => (⟨start, start + 1, .error (.truncatedLength width (start + 1))⟩, [])
  | .bare => (⟨start, start + 1, .ok (.op opcode)⟩, bytes)

theorem readData_length_le (start offset length : Nat) (bytes : Bytes) :
    (readData start offset length bytes).2.length ≤ bytes.length := by
  unfold readData
  split
  next h =>
    obtain ⟨rfl, _⟩ := Bytes.split?_eq_some_iff.mp h
    simp
  next => simp

theorem readToken_length_le (start : Nat) (opcode : UInt8) (bytes : Bytes) :
    (readToken start opcode bytes).2.length ≤ bytes.length := by
  unfold readToken
  split
  next => exact readData_length_le ..
  next =>
    split
    next h =>
      obtain ⟨rfl, _⟩ := Bytes.split?_eq_some_iff.mp h
      exact Nat.le_trans (readData_length_le ..) (by simp)
    next => simp
  next => exact Nat.le_refl _

/-- The tokens of bytes that begin at `start`, after those already `taken`, the last first. -/
def tokensFrom (start : Nat) (taken : List Token) : Bytes → List Token
  | [] => taken.reverse
  | opcode :: bytes =>
    let reading := readToken start opcode bytes
    tokensFrom reading.1.stop (reading.1 :: taken) reading.2
termination_by bytes => bytes.length
decreasing_by
  have := readToken_length_le start opcode bytes
  simp only [List.length_cons]
  omega

/-- The tokens of a script, in order. -/
def tokens (script : Bytes) : List Token :=
  tokensFrom 0 [] script

/-- The elements of a script that is free of faults, or else its fault. -/
def elements (script : Bytes) : Except Fault (List Element) :=
  (tokens script).mapM Token.content

theorem tokensFrom_nil (start : Nat) (taken : List Token) :
    tokensFrom start taken [] = taken.reverse := by
  rw [tokensFrom]

theorem tokensFrom_cons (start : Nat) (taken : List Token) (opcode : UInt8) (bytes : Bytes) :
    tokensFrom start taken (opcode :: bytes) =
      tokensFrom (readToken start opcode bytes).1.stop
        ((readToken start opcode bytes).1 :: taken) (readToken start opcode bytes).2 := by
  rw [tokensFrom]

end SimpleLedger.Script
