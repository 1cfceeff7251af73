import SimpleLedger.Text.Numeral

namespace SimpleLedger

/-- The number `mantissa * 10 ^ exponent`, or its negative. -/
structure Decimal where
  negative : Bool
  mantissa : Nat
  exponent : Int
deriving DecidableEq

namespace Decimal

/-- The number with these digits before and after the point, times a power of ten. -/
def ofDigits (negative : Bool) (whole fraction : List Char) (exponent : Int) : Decimal :=
  ⟨negative, Text.digitsValue (whole ++ fraction), exponent - fraction.length⟩

/-- The exponent that ends a number: nothing, or `e` and a whole number. -/
def exponent? : List Char → Option Int
  | [] => some 0
  | c :: rest =>
    if c = 'e' ∨ c = 'E' then
      let (negative, digits) := Text.signed rest
      (Text.natural? digits).map fun n => if negative then -(n : Int) else n
    else none

/-- The number that a text spells: an optional sign, digits with an optional point among or beside
them, and an optional exponent. -/
def ofText? (text : List Char) : Option Decimal :=
  let (negative, unsigned) := Text.signed text
  let whole := unsigned.takeWhile Char.isDigit
  let (fraction, tail) := match unsigned.dropWhile Char.isDigit with
    | '.' :: rest => (rest.takeWhile Char.isDigit, rest.dropWhile Char.isDigit)
    | rest => ([], rest)
  if whole.isEmpty && fraction.isEmpty then none
  else (exponent? tail).map (ofDigits negative whole fraction)

end Decimal

end SimpleLedger
