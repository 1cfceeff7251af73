import SimpleLedger.Bytes.Hex

namespace SimpleLedger.Percent

/-- Reads bytes after those already `taken`, the last first. -/
def decodeOnto (taken : Bytes) : Bytes → Bytes
  | [] => taken.reverse
  | [a] => (a :: taken).reverse
  | [a, b] => (b :: a :: taken).reverse
  | mark :: high :: low :: rest =>
    match mark == 0x25, Hex.value? high, Hex.value? low with
    | true, some h, some l => decodeOnto (UInt8.ofNat (16 * h + l) :: taken) rest
    | _, _, _ => decodeOnto (mark :: taken) (high :: low :: rest)

/-- The bytes a URI segment stands for: a percent sign with two hexadecimal digits is the byte they
spell, and every other byte is itself. -/
def decode (segment : Bytes) : Bytes :=
  decodeOnto [] segment

end SimpleLedger.Percent
