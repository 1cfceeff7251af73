import SimpleLedger.Bytes

namespace SimpleLedger.Hex

/-- The digit for a number below sixteen, `ten` being the digit for ten. -/
def digit (ten : Char) (n : Nat) : Char :=
  if n < 10 then Char.ofNat (n + 48) else Char.ofNat (n - 10 + ten.toNat)

def digits (ten : Char) (bytes : Bytes) : List Char :=
  bytes.flatMap fun b => [digit ten (b.toNat / 16), digit ten (b.toNat % 16)]

/-- Bytes in lower-case digits. -/
def lower (bytes : Bytes) : String :=
  String.ofList (digits 'a' bytes)

/-- Bytes in upper-case digits. -/
def upper (bytes : Bytes) : String :=
  String.ofList (digits 'A' bytes)

/-- The number a digit stands for, the digit given by its code. -/
def value? (code : UInt8) : Option Nat :=
  if 48 ≤ code ∧ code ≤ 57 then some (code.toNat - 48)
  else if 97 ≤ code ∧ code ≤ 102 then some (code.toNat - 87)
  else if 65 ≤ code ∧ code ≤ 70 then some (code.toNat - 55)
  else none

/-- Why a spelling gives no bytes. -/
inductive Fault where
  | oddLength
  | badDigit (code : UInt8) (index : Nat)
deriving DecidableEq

/-- Reads pairs of digits after those already `taken`, the last byte first; `index` is the place of
the next digit. -/
def decodePairs (index : Nat) (taken : Bytes) : Bytes → Except Fault Bytes
  | [] => .ok taken.reverse
  | [_] => .error .oddLength
  | high :: low :: rest =>
    match value? high, value? low with
    | some h, some l => decodePairs (index + 2) (UInt8.ofNat (16 * h + l) :: taken) rest
    | some _, none => .error (.badDigit low (index + 1))
    | none, _ => .error (.badDigit high index)

/-- The bytes that a spelling stands for. An odd number of digits is refused before any digit is
looked at. -/
def decode (spelling : Bytes) : Except Fault Bytes :=
  if spelling.length % 2 = 1 then .error .oddLength else decodePairs 0 [] spelling

end SimpleLedger.Hex
