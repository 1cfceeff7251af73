import SimpleLedger.Decimal.Binary64

namespace SimpleLedger

/-- The decimal of the leading digits that fit a 64-bit word, from `count` places up at most. -/
def Decimal.leading (d : Decimal) : Nat → Decimal
  | 0 => d
  | count + 1 =>
    if d.mantissa < UInt64.size then d
    else Decimal.leading { d with mantissa := d.mantissa / 10, exponent := d.exponent + 1 } count

namespace Binary64

/-- The distance of a finite number from zero as a numerator and a denominator. -/
def magnitude : Binary64 → Nat × Nat
  | finite _ mantissa exponent => scaled mantissa 1 (-exponent)
  | _ => (0, 1)

/-- The number nearest to a power of ten. -/
def tenPower (n : Nat) : Binary64 :=
  ofRatio false (Nat.pow 10 n) 1

/-- The number nearest to a product, with a sign of its own. -/
def product (negative : Bool) (x y : Binary64) : Binary64 :=
  ofRatio negative (x.magnitude.1 * y.magnitude.1) (x.magnitude.2 * y.magnitude.2)

/-- The number nearest to a quotient, with a sign of its own. -/
def quotient (negative : Bool) (x y : Binary64) : Binary64 :=
  ofRatio negative (x.magnitude.1 * y.magnitude.2) (x.magnitude.2 * y.magnitude.1)

/-- The highest power of ten that is not beyond the range. -/
def highestTenPower : Nat := 308

/-- The number that the leading digits of a decimal give. One that needs a power of ten beyond the
range is infinite, or is divided twice. -/
def ofLeading (d : Decimal) : Binary64 :=
  let d := d.leading d.mantissa.log2
  let digits := ofRatio false d.mantissa 1
  let places := d.exponent.natAbs
  if d.mantissa = 0 then finite d.negative 0 lowestExponent
  else if 0 ≤ d.exponent then
    if places ≤ highestTenPower then product d.negative digits (tenPower places)
    else infinite d.negative
  else if places ≤ highestTenPower then quotient d.negative digits (tenPower places)
  else if places ≤ 2 * highestTenPower then
    quotient d.negative (quotient false digits (tenPower highestTenPower))
      (tenPower (places - highestTenPower))
  else finite d.negative 0 lowestExponent

end Binary64

end SimpleLedger
