import SimpleLedger.Bytes

namespace SimpleLedger.Text

/-- The characters with the Unicode property White_Space. -/
def isBlank (c : Char) : Bool :=
  let n := c.toNat
  (0x9 ≤ n && n ≤ 0xd) || n == 0x20 || n == 0x85 || n == 0xa0 || n == 0x1680 ||
    (0x2000 ≤ n && n ≤ 0x200a) || n == 0x2028 || n == 0x2029 || n == 0x202f || n == 0x205f ||
    n == 0x3000

/-- A text without the white space at its ends. -/
def trim (text : List Char) : List Char :=
  ((text.dropWhile isBlank).reverse.dropWhile isBlank).reverse

def utf8 (text : List Char) : Bytes :=
  text.flatMap String.utf8EncodeChar

/-- A text without the byte order mark that it may begin with. -/
def withoutMark : List Char → List Char
  | '\ufeff' :: text => text
  | text => text

end SimpleLedger.Text
