import SimpleLedger.Decimal

namespace SimpleLedger

/-- A 64-bit binary floating point number. A finite one is `mantissa * 2 ^ exponent`, with a mantissa
of 53 bits unless the exponent is the lowest. -/
inductive Binary64 where
  | nan
  | infinite (negative : Bool)
  | finite (negative : Bool) (mantissa : Nat) (exponent : Int)
deriving DecidableEq

namespace Binary64

def lowestExponent : Int := -1074

def highestExponent : Int := 971

/-- The least number that no mantissa reaches. -/
def mantissaBound : Nat := 0x20000000000000

/-- The least mantissa of 53 bits. -/
def leastFull : Nat := 0x10000000000000

/-- A quotient rounded to the nearest whole number, a half to the even neighbour. -/
def roundQuotient (num den : Nat) : Nat :=
  let q := num / den
  let twice := 2 * (num % den)
  if twice < den ∨ (twice = den ∧ q % 2 = 0) then q else q + 1

/-- The ratio `num / (den * 2 ^ exponent)` as a numerator and a denominator. -/
def scaled (num den : Nat) (exponent : Int) : Nat × Nat :=
  if exponent < 0 then (num * Nat.pow 2 exponent.natAbs, den)
  else (num, den * Nat.pow 2 exponent.natAbs)

/-- The number nearest to `num / den`, a tie going to the even mantissa. -/
def ofRatio (negative : Bool) (num den : Nat) : Binary64 :=
  if num = 0 then finite negative 0 lowestExponent
  else
    let guess : Int := (num.log2 : Int) - den.log2 - 53
    let fits (exponent : Int) : Bool :=
      let ratio := scaled num den exponent
      ratio.1 / ratio.2 < mantissaBound
    let exponent := max lowestExponent (if fits guess then guess else guess + 1)
    let ratio := scaled num den exponent
    let mantissa := roundQuotient ratio.1 ratio.2
    let (mantissa, exponent) :=
      if mantissa = mantissaBound then (leastFull, exponent + 1) else (mantissa, exponent)
    if highestExponent < exponent then infinite negative else finite negative mantissa exponent

/-- The number nearest to a decimal. A decimal far beyond the range is not worked out. -/
def ofDecimal (d : Decimal) : Binary64 :=
  let size : Int := (Nat.toDigits 10 d.mantissa).length + d.exponent
  if d.mantissa = 0 then finite d.negative 0 lowestExponent
  else if 400 < size then infinite d.negative
  else if size < -400 then finite d.negative 0 lowestExponent
  else if d.exponent < 0 then ofRatio d.negative d.mantissa (Nat.pow 10 d.exponent.natAbs)
  else ofRatio d.negative (d.mantissa * Nat.pow 10 d.exponent.natAbs) 1

/-- The number that a text spells, in decimal or as a name for what is not finite. -/
def ofText? (text : String) : Option Binary64 :=
  let (negative, unsigned) := Text.signed text.toList
  let word := String.ofList (unsigned.map Char.toLower)
  if word = "inf" ∨ word = "infinity" then some (infinite negative)
  else if word = "nan" then some nan
  else (Decimal.ofText? text.toList).map ofDecimal

/-- Which of two neighbours is taken where both are as near: the greater or the even one. -/
inductive Tie where
  | greater
  | even
deriving DecidableEq

/-- The one of `n` and `n + 1` that is taken where both are as near. -/
def Tie.choose (tie : Tie) (n : Nat) : Nat :=
  if tie = .even ∧ n % 2 = 0 then n else n + 1

/-- The multiple of `10 ^ power` that rounds to `m * 2 ^ exponent` and is nearest to it, if there is
one. Lengths are measured in units of `2 ^ (exponent - 2)`. -/
def multiple? (tie : Tie) (m : Nat) (exponent power : Int) : Option Nat :=
  let below := if m = leastFull ∧ lowestExponent < exponent then 4 * m - 1 else 4 * m - 2
  let above := 4 * m + 2
  let unit := scaled 1 1 (exponent - 2)
  let step := if power < 0 then (1, Nat.pow 10 power.natAbs) else (Nat.pow 10 power.natAbs, 1)
  -- `n * 10 ^ power` is `n * stride / pace` units
  let stride := step.1 * unit.1
  let pace := step.2 * unit.2
  let low := 4 * m * pace / stride
  let inside (n : Nat) : Bool :=
    n ≠ 0 && if m % 2 = 0 then below * pace ≤ n * stride && n * stride ≤ above * pace
      else below * pace < n * stride && n * stride < above * pace
  let double := 2 * 4 * m * pace
  let middle := (2 * low + 1) * stride
  let nearest := if double < middle then low else if middle < double then low + 1 else tie.choose low
  match inside low, inside (low + 1) with
  | true, true => some nearest
  | true, false => some low
  | false, true => some (low + 1)
  | false, false => none

/-- The multiple of the coarsest power of ten, from `power` down, that rounds to a number. -/
def shortestFrom (tie : Tie) (mantissa : Nat) (exponent : Int) : Nat → Int → Nat × Int
  | 0, power => (0, power)
  | count + 1, power =>
    match multiple? tie mantissa exponent power with
    | some n => (n, power)
    | none => shortestFrom tie mantissa exponent count (power - 1)

/-- The digits and the power of ten of the shortest decimal that rounds to a number, and of those the
nearest one. -/
def shortest (tie : Tie) (mantissa : Nat) (exponent : Int) : Nat × Int :=
  if mantissa = 0 then (0, 0) else shortestFrom tie mantissa exponent 640 310

/-- Digits times a power of ten without exponent; a point stands only before other digits. -/
def positional (digits : List Char) (power : Int) : List Char :=
  if 0 ≤ power then digits ++ List.replicate power.natAbs '0'
  else
    let places := power.natAbs
    let padded := List.replicate (places + 1 - digits.length) '0' ++ digits
    padded.take (padded.length - places) ++ '.' :: padded.drop (padded.length - places)

/-- A number as text: the shortest decimal that rounds to it, the greater of two as near, without
exponent. -/
def text : Binary64 → String
  | nan => "NaN"
  | infinite negative => if negative then "-inf" else "inf"
  | finite negative mantissa exponent =>
    let (digits, power) := shortest .greater mantissa exponent
    let digits := if mantissa = 0 then ['0'] else positional (Nat.toDigits 10 digits) power
    String.ofList (if negative then '-' :: digits else digits)

/-- A number rounded to a whole word, a half away from zero; what is too small becomes zero, what is
too large the highest word, and no number becomes zero. -/
def toWord : Binary64 → Nat
  | nan => 0
  | infinite negative => if negative then 0 else UInt64.size - 1
  | finite negative mantissa exponent =>
    if negative then 0
    else
      let ratio := scaled mantissa 1 (-exponent)
      min ((2 * ratio.1 + ratio.2) / (2 * ratio.2)) (UInt64.size - 1)

end Binary64

end SimpleLedger
