import SimpleLedger.Decimal.Leading
import SimpleLedger.Json
import SimpleLedger.Json.Written

namespace SimpleLedger.Json

/-- The number that is written. -/
def ofDecimal? (value : Decimal) (whole : Bool) : Option Json :=
  let n : Int := if value.negative then -value.mantissa else value.mantissa
  if whole && !(value.negative && value.mantissa == 0) && -0x8000000000000000 ≤ n &&
      n < 0x10000000000000000 then some (int n)
  else
    match Binary64.ofLeading value with
    | .finite negative mantissa exponent => some (real (.finite negative mantissa exponent))
    | _ => none

mutual

/-- The value that is written, if all its strings are texts and its numbers in range. -/
def ofWritten? : Written → Option Json
  | .null => some null
  | .bool b => some (bool b)
  | .number n whole => ofDecimal? n whole
  | .string pieces => (Piece.text? pieces).map str
  | .array items => (ofItems? items).map arr
  | .object members => (ofMembers? members).map obj

def ofItems? : List Written → Option (List Json)
  | [] => some []
  | item :: items => do
    let item ← ofWritten? item
    let items ← ofItems? items
    some (item :: items)

def ofMembers? : List (List Piece × Written) → Option (List (String × Json))
  | [] => some []
  | (name, value) :: members => do
    let name ← Piece.text? name
    let value ← ofWritten? value
    let members ← ofMembers? members
    some ((name, value) :: members)

end

/-- The value that a text spells. -/
def ofText? (text : String) : Option Json :=
  (Written.ofText? text).bind ofWritten?

end SimpleLedger.Json
