import SimpleLedger.Text.Extending
import SimpleLedger.Text.Unprinted

namespace SimpleLedger.Text

/-- Whether a character is shown as itself: it has a shape of its own. -/
def isPrinted (c : Char) : Bool :=
  (0x20 ≤ c.toNat && c.toNat < 0x7f) || !(isUnprinted c || isExtending c)

/-- The digits of a number in lower-case hexadecimal, without leading zeros. -/
def hexDigits (n : Nat) : String :=
  String.ofList (Nat.toDigits 16 n)

/-- A character as shown between quotation marks of the given kind. -/
def shownChar (quote c : Char) : String :=
  if c == quote then "\\" ++ c.toString
  else if c == '\\' then "\\\\"
  else if c == '\t' then "\\t"
  else if c == '\n' then "\\n"
  else if c == '\r' then "\\r"
  else if c.toNat == 0 then "\\0"
  else if isPrinted c then c.toString
  else "\\u\x7b" ++ hexDigits c.toNat ++ "\x7d"

/-- A single character shown in single quotes. -/
def shown (c : Char) : String :=
  "'" ++ shownChar '\'' c ++ "'"

/-- A text shown in double quotes. -/
def quoted (text : String) : String :=
  "\"" ++ String.join (text.toList.map (shownChar '"')) ++ "\""

end SimpleLedger.Text
