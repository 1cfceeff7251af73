import SimpleLedger.Decimal.Binary64

namespace SimpleLedger

/-- A JSON value. -/
inductive Json where
  | null
  | bool (value : Bool)
  | int (value : Int)
  | real (value : Binary64)
  | str (value : String)
  | arr (items : List Json)
  | obj (members : List (String × Json))

namespace Json

/-- A number that is not negative. -/
def nat (n : Nat) : Json :=
  int n

/-- The spelling of a character in a string: quotation mark, backslash and controls are escaped. -/
def escaped (c : Char) : List Char :=
  if c = '"' then ['\\', '"']
  else if c = '\\' then ['\\', '\\']
  else if c = '\n' then ['\\', 'n']
  else if c = '\r' then ['\\', 'r']
  else if c = '\t' then ['\\', 't']
  else if c.toNat = 8 then ['\\', 'b']
  else if c.toNat = 12 then ['\\', 'f']
  else if c.toNat < 32 then
    ['\\', 'u', '0', '0', Nat.digitChar (c.toNat / 16), Nat.digitChar (c.toNat % 16)]
  else [c]

def string (text : String) : List Char :=
  '"' :: text.toList.flatMap escaped ++ ['"']

/-- The spelling of a real number: the shortest digits that read back, of two as near the even ones;
positional with a point from 1e-5 up to below 1e16, otherwise one digit before the point and an
exponent with its sign. -/
def real.spelling : Binary64 → List Char
  | .finite negative mantissa exponent =>
    let (n, power) := Binary64.shortest .even mantissa exponent
    let digits := if mantissa = 0 then ['0'] else Nat.toDigits 10 n
    let order := digits.length + power
    let unsigned :=
      if mantissa = 0 then ['0', '.', '0']
      else if 0 ≤ power ∧ order ≤ 16 then Binary64.positional digits power ++ ['.', '0']
      else if -5 < order ∧ order ≤ 16 then Binary64.positional digits power
      else
        let tail := if digits.length ≤ 1 then [] else '.' :: digits.drop 1
        let sign := if 0 < order then ['+'] else []
        digits.take 1 ++ tail ++ 'e' :: sign ++ (toString (order - 1)).toList
    if negative then '-' :: unsigned else unsigned
  | _ => ['n', 'u', 'l', 'l']

mutual

/-- The text of a value without any white space. -/
def compact : Json → List Char
  | null => ['n', 'u', 'l', 'l']
  | bool true => ['t', 'r', 'u', 'e']
  | bool false => ['f', 'a', 'l', 's', 'e']
  | int n => (toString n).toList
  | real x => real.spelling x
  | str text => string text
  | arr [] => ['[', ']']
  | arr (item :: items) => '[' :: compact item ++ compactItems items
  | obj [] => ['\x7b', '\x7d']
  | obj ((name, value) :: members) =>
    '\x7b' :: string name ++ ':' :: compact value ++ compactMembers members

/-- The rest of an array, after its first items. -/
def compactItems : List Json → List Char
  | [] => [']']
  | item :: items => ',' :: compact item ++ compactItems items

/-- The rest of an object, after its first members. -/
def compactMembers : List (String × Json) → List Char
  | [] => ['\x7d']
  | (name, value) :: members => ',' :: string name ++ ':' :: compact value ++ compactMembers members

end

/-- A new line, indented by two spaces for each level. -/
def newLine (level : Nat) : List Char :=
  '\n' :: List.replicate (2 * level) ' '

mutual

/-- The text of a value with every item and member on its own line, at some level of nesting. -/
def indented (level : Nat) : Json → List Char
  | arr (item :: items) =>
    '[' :: newLine (level + 1) ++ indented (level + 1) item ++ indentedItems level items
  | obj ((name, value) :: members) =>
    '\x7b' :: newLine (level + 1) ++ string name ++ ':' :: ' ' :: indented (level + 1) value ++
      indentedMembers level members
  | arr [] => ['[', ']']
  | obj [] => ['\x7b', '\x7d']
  | null => ['n', 'u', 'l', 'l']
  | bool true => ['t', 'r', 'u', 'e']
  | bool false => ['f', 'a', 'l', 's', 'e']
  | int n => (toString n).toList
  | real x => real.spelling x
  | str text => string text

/-- The rest of an array, after its first items. -/
def indentedItems (level : Nat) : List Json → List Char
  | [] => newLine level ++ [']']
  | item :: items =>
    ',' :: newLine (level + 1) ++ indented (level + 1) item ++ indentedItems level items

/-- The rest of an object, after its first members. -/
def indentedMembers (level : Nat) : List (String × Json) → List Char
  | [] => newLine level ++ ['\x7d']
  | (name, value) :: members =>
    ',' :: newLine (level + 1) ++ string name ++ ':' :: ' ' :: indented (level + 1) value ++
      indentedMembers level members

end

/-- The text of a value on one line, without white space. -/
def compactText (value : Json) : String :=
  String.ofList value.compact

/-- The text of a value over several lines. -/
def prettyText (value : Json) : String :=
  String.ofList (indented 0 value)

/-- Puts a member into members sorted by name, in the place of one with the same name. -/
def insertMember (name : String) (value : Json) : List (String × Json) → List (String × Json)
  | [] => [(name, value)]
  | (other, kept) :: members =>
    if name < other then (name, value) :: (other, kept) :: members
    else if name = other then (name, value) :: members
    else (other, kept) :: insertMember name value members

mutual

/-- A value with the members of every object in the order of their names. -/
def sorted : Json → Json
  | arr items => arr (sortedItems items)
  | obj members => obj (sortedMembers [] members)
  | value => value

/-- The items of an array, each sorted. -/
def sortedItems : List Json → List Json
  | [] => []
  | item :: items => sorted item :: sortedItems items

/-- Members that are put one after the other among those already in order. -/
def sortedMembers (done : List (String × Json)) : List (String × Json) → List (String × Json)
  | [] => done
  | (name, value) :: members => sortedMembers (insertMember name (sorted value) done) members

end

/-- The member of an object with a given name, the last of several. -/
def member? (name : String) : Json → Option Json
  | obj members => members.reverse.lookup name
  | _ => none

end Json

end SimpleLedger
