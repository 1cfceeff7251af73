import SimpleLedger.Settings.Toml.Quoted
import SimpleLedger.Settings.Value

namespace SimpleLedger.Settings.Toml

/-- Digits without the underscores that stand between two of them. -/
def withoutUnderscores? (isDigit : Char → Bool) : List Char → Option (List Char)
  | [] => some []
  | c :: '_' :: d :: rest =>
    if isDigit c && isDigit d then (withoutUnderscores? isDigit (d :: rest)).map (c :: ·) else none
  | c :: rest => if c == '_' then none else (withoutUnderscores? isDigit rest).map (c :: ·)

/-- A whole number in another base, its digits below that base. -/
def inBase? (base : Nat) (digits : List Char) : Option Value := do
  let value (c : Char) : Nat := (Text.hexValue? c).getD base
  let digits ← withoutUnderscores? (fun c => value c < base) digits
  if digits.isEmpty || !digits.all fun c => value c < base then none
  else
    let n := digits.foldl (fun n c => base * n + value c) 0
    if n < 0x8000000000000000 then some (.int n) else none

/-- Whether digits have no zero before others. -/
def noLeadingZero : List Char → Bool
  | '0' :: _ :: _ => false
  | digits => !digits.isEmpty

def number? (word : List Char) : Option Value := do
  let (_, unsigned) := Text.signed word
  if unsigned = "inf".toList ∨ unsigned = "nan".toList then
    (Binary64.ofText? (String.ofList word)).map .float
  else
    let plain ← withoutUnderscores? Char.isDigit word
    let (_, unsigned) := Text.signed plain
    let (whole, tail) := unsigned.span Char.isDigit
    if !noLeadingZero whole then none
    else
      match tail with
      | [] => (Text.integer? (String.ofList plain)).map .int
      | '.' :: tail =>
        let fraction := tail.takeWhile Char.isDigit
        if fraction.isEmpty then none else (Binary64.ofText? (String.ofList plain)).map .float
      | _ => (Binary64.ofText? (String.ofList plain)).map .float

/-- The value of a word: a truth value or a number. Digits above the range of numbers are no value,
and those below it are the negative infinity. -/
def word? (word : List Char) : Option Value :=
  if word = "true".toList then some (.bool true)
  else if word = "false".toList then some (.bool false)
  else
    match word with
    | '0' :: 'x' :: digits => inBase? 16 digits
    | '0' :: 'o' :: digits => inBase? 8 digits
    | '0' :: 'b' :: digits => inBase? 2 digits
    | _ => (number? word).filter fun value => !(isInfinite value && word.any Char.isDigit)
where
  isInfinite : Value → Bool
    | .float (.infinite negative) => !negative
    | _ => false

end SimpleLedger.Settings.Toml
