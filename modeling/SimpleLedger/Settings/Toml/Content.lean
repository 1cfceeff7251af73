import SimpleLedger.Settings.Moment
import SimpleLedger.Settings.Toml.Draft
import SimpleLedger.Settings.Toml.Key
import SimpleLedger.Settings.Toml.Number

namespace SimpleLedger.Settings.Toml

/-- The key of the text of a date. A table that begins with it stands for that date. -/
def dateKey : String := "$__toml_private_datetime"

/-- The table that stands for a date. -/
def ofMoment (moment : Moment) : Value :=
  .table [(dateKey, .text moment.text)]

/-- A value that consists of a single word or date, and what follows it. -/
def plain? (text : List Char) : Option (Value × List Char) :=
  match Moment.literal? text with
  | some (moment, rest) => some (ofMoment moment, rest)
  | none =>
    let (word, rest) := text.span fun c => isBare c || c == '.' || c == '+'
    (word? word).map fun value => (value, rest)

mutual

/-- A value with at most as many values one within the other as allowed, and what follows it. -/
def value? (fuel allowed : Nat) (text : List Char) : Option (Value × List Char) :=
  match fuel with
  | 0 => none
  | fuel + 1 =>
    match text with
    | '"' :: _ => (string? text).map fun (text, rest) => (.text text, rest)
    | '\'' :: _ => (string? text).map fun (text, rest) => (.text text, rest)
    | '[' :: rest =>
      if allowed = 0 then none
      else (items? fuel (allowed - 1) rest).map fun (items, rest) => (.array items, rest)
    | '\x7b' :: rest =>
      if allowed = 0 then none
      else
        match dropSpaces rest with
        | '\x7d' :: rest => some (.table [], rest)
        | rest => (entries? fuel (allowed - 1) Draft.empty rest).map fun (draft, rest) =>
          (draft.root, rest)
    | _ => plain? text

/-- The items of an array after its opening bracket or a comma, and what follows the array. -/
def items? (fuel allowed : Nat) (text : List Char) : Option (List Value × List Char) :=
  match fuel with
  | 0 => none
  | fuel + 1 =>
    match dropBlank text.length text with
    | ']' :: rest => some ([], rest)
    | text =>
      match value? fuel allowed text with
      | none => none
      | some (item, rest) =>
        match dropBlank rest.length rest with
        | ',' :: rest => (items? fuel allowed rest).map fun (items, rest) => (item :: items, rest)
        | ']' :: rest => some ([item], rest)
        | _ => none

/-- The entries of a table after its opening brace or a comma, laid in a draft of it, and what follows
the table. -/
def entries? (fuel allowed : Nat) (draft : Draft) (text : List Char) :
    Option (Draft × List Char) :=
  match fuel with
  | 0 => none
  | fuel + 1 => do
    let (key, rest) ← key? depthLimit text
    let rest ← match rest with
      | '=' :: rest => some rest
      | _ => none
    let (value, rest) ← value? fuel allowed (dropSpaces rest)
    let draft ← draft.set? key value
    match dropSpaces rest with
    | ',' :: rest => entries? fuel allowed draft rest
    | '\x7d' :: rest => some (draft, rest)
    | _ => none

end

mutual

/-- A value with the texts of dates in the place of the tables that stand for them. -/
def dated? : Value → Option Value
  | .table entries =>
    match entries with
    | (key, .text text) :: rest =>
      if key = dateKey then (Moment.ofText? text).map fun moment => .text moment.text
      else (datedEntries? rest).map fun rest => .table ((key, .text text) :: rest)
    | (key, value) :: rest =>
      if key = dateKey then none
      else do
        let value ← dated? value
        let rest ← datedEntries? rest
        some (.table ((key, value) :: rest))
    | [] => some (.table [])
  | .array items => (datedItems? items).map .array
  | value => some value

/-- The entries of a table after the first of them. -/
def datedEntries? : List (String × Value) → Option (List (String × Value))
  | [] => some []
  | (key, value) :: rest => do
    let value ← dated? value
    let rest ← datedEntries? rest
    some ((key, value) :: rest)

def datedItems? : List Value → Option (List Value)
  | [] => some []
  | item :: items => do
    let item ← dated? item
    let items ← datedItems? items
    some (item :: items)

end

end SimpleLedger.Settings.Toml
