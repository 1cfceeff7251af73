import SimpleLedger.Text.Numeral

namespace SimpleLedger.Settings

/-- A day of the calendar. -/
structure Date where
  year : Nat
  month : Nat
  day : Nat
deriving DecidableEq

/-- A time of day. -/
structure Clock where
  hour : Nat
  minute : Nat
  second : Nat
  nanosecond : Nat
deriving DecidableEq

/-- How far a time is from universal time. -/
inductive Offset where
  | universal
  | shifted (behind : Bool) (hours minutes : Nat)
deriving DecidableEq

/-- A date, a time, or both. -/
structure Moment where
  date : Option Date
  clock : Option Clock
  offset : Option Offset
deriving DecidableEq

/-- The number that the next digits give, as many as are asked for, and what follows them. -/
def digits? (count : Nat) (text : List Char) : Option (Nat × List Char) :=
  let digits := text.take count
  if digits.length = count ∧ digits.all Char.isDigit then
    some (Text.digitsValue digits, text.drop count)
  else none

/-- What follows a mark. -/
def after? (mark : Char) : List Char → Option (List Char)
  | [] => none
  | c :: text => if c = mark then some text else none

/-- A number with zeros before it up to a width. -/
def padded (width n : Nat) : List Char :=
  let digits := Nat.toDigits 10 n
  List.replicate (width - digits.length) '0' ++ digits

namespace Date

/-- The date that a text begins with, and what follows it. -/
def scan? (text : List Char) : Option (Date × List Char) := do
  let (year, text) ← digits? 4 text
  let text ← after? '-' text
  let (month, text) ← digits? 2 text
  let text ← after? '-' text
  let (day, text) ← digits? 2 text
  some ({ year, month, day }, text)

/-- Whether a year has a 29th of February. -/
def isLeap (year : Nat) : Bool :=
  year % 4 == 0 && (year % 100 != 0 || year % 400 == 0)

/-- How many days a month has. -/
def daysIn (year month : Nat) : Nat :=
  if month = 2 then (if isLeap year then 29 else 28)
  else if month = 4 ∨ month = 6 ∨ month = 9 ∨ month = 11 then 30
  else 31

/-- Whether the calendar has a date. -/
def isReal (date : Date) : Bool :=
  1 ≤ date.month && date.month ≤ 12 && 1 ≤ date.day && date.day ≤ daysIn date.year date.month

def text (date : Date) : List Char :=
  padded 4 date.year ++ '-' :: padded 2 date.month ++ '-' :: padded 2 date.day

end Date

namespace Clock

/-- The nanoseconds of a fraction of a second, if there is one, and what follows it. Digits after the
ninth do not count. -/
def fraction (text : List Char) : Nat × List Char :=
  match text with
  | '.' :: rest =>
    let digits := rest.takeWhile Char.isDigit
    if digits.isEmpty then (0, text)
    else
      (Text.digitsValue ((digits ++ List.replicate 9 '0').take 9), rest.dropWhile Char.isDigit)
  | _ => (0, text)

/-- The time that a text begins with, and what follows it. -/
def scan? (text : List Char) : Option (Clock × List Char) := do
  let (hour, text) ← digits? 2 text
  let text ← after? ':' text
  let (minute, text) ← digits? 2 text
  let text ← after? ':' text
  let (second, text) ← digits? 2 text
  let (nanosecond, text) := fraction text
  some ({ hour, minute, second, nanosecond }, text)

/-- Whether a day has a time. A minute may have a second more. -/
def isReal (clock : Clock) : Bool :=
  clock.hour ≤ 23 && clock.minute ≤ 59 && clock.second ≤ 60

/-- The text of a time, with no zero at the end of its fraction. -/
def text (clock : Clock) : List Char :=
  let fraction := ((padded 9 clock.nanosecond).reverse.dropWhile (· == '0')).reverse
  padded 2 clock.hour ++ ':' :: padded 2 clock.minute ++ ':' :: padded 2 clock.second ++
    if fraction.isEmpty then [] else '.' :: fraction

end Clock

namespace Offset

/-- The offset that a text begins with, if it begins with one, and what follows it. -/
def scan (text : List Char) : Option Offset × List Char :=
  match text with
  | 'Z' :: rest => (some universal, rest)
  | 'z' :: rest => (some universal, rest)
  | '+' :: rest => shift false rest
  | '-' :: rest => shift true rest
  | _ => (none, text)
where
  shift (behind : Bool) (rest : List Char) : Option Offset × List Char :=
    let found : Option (Offset × List Char) := do
      let (hours, rest) ← digits? 2 rest
      let rest ← after? ':' rest
      let (minutes, rest) ← digits? 2 rest
      some (shifted behind hours minutes, rest)
    match found with
    | some (offset, rest) => (some offset, rest)
    | none => (none, text)

/-- The minutes between a time and universal time. -/
def minutes : Offset → Nat
  | universal => 0
  | shifted _ hours minutes => 60 * hours + minutes

/-- Whether an offset is at most a day. -/
def isWithinDay (offset : Offset) : Bool :=
  offset.minutes ≤ 1440

/-- Whether an offset is a time of day. -/
def isClock : Offset → Bool
  | universal => true
  | shifted _ hours minutes => hours ≤ 23 && minutes ≤ 59

/-- The text of an offset. No offset is behind by nothing. -/
def text (offset : Offset) : List Char :=
  let digits := padded 2 (offset.minutes / 60) ++ ':' :: padded 2 (offset.minutes % 60)
  match offset with
  | universal => ['Z']
  | shifted behind _ _ => (if behind ∧ offset.minutes ≠ 0 then '-' else '+') :: digits

end Offset

namespace Moment

/-- The time that follows a date, after a `T` or a space. -/
def clockAfter? : List Char → Option (Clock × List Char)
  | [] => none
  | c :: text => if c = 'T' ∨ c = 't' ∨ c = ' ' then Clock.scan? text else none

/-- The moment that a text begins with, and what follows it. -/
def scan? (text : List Char) : Option (Moment × List Char) :=
  match Date.scan? text with
  | none =>
    (Clock.scan? text).map fun (clock, rest) =>
      ({ date := none, clock := some clock, offset := none }, rest)
  | some (date, rest) =>
    match clockAfter? rest with
    | none => some ({ date := some date, clock := none, offset := none }, rest)
    | some (clock, rest) =>
      let (offset, rest) := Offset.scan rest
      some ({ date := some date, clock := some clock, offset }, rest)

/-- Whether there is such a moment, with an offset of the given kind. -/
def isReal (isOffset : Offset → Bool) (moment : Moment) : Bool :=
  moment.date.all Date.isReal && moment.clock.all Clock.isReal && moment.offset.all isOffset

/-- The moment that a value begins with, and what follows it. -/
def literal? (text : List Char) : Option (Moment × List Char) :=
  (scan? text).filter fun (moment, _) => moment.isReal Offset.isClock

/-- The moment that a whole text gives. Its offset may be as much as a whole day. -/
def ofText? (text : String) : Option Moment :=
  match scan? text.toList with
  | some (moment, []) => if moment.isReal Offset.isWithinDay then some moment else none
  | _ => none

def text (moment : Moment) : String :=
  let clock := match moment.clock with
    | none => []
    | some clock => if moment.date.isSome then 'T' :: clock.text else clock.text
  String.ofList ((moment.date.map Date.text).getD [] ++ clock ++
    (moment.offset.map Offset.text).getD [])

end Moment

end SimpleLedger.Settings
