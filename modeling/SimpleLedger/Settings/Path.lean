import SimpleLedger.Settings.Value

namespace SimpleLedger.Settings

/-- One step of a path: to the entry of a table, or to a place in an array, which is counted from the
end if negative. -/
inductive Step where
  | key (name : String)
  | place (index : Int)
deriving DecidableEq

namespace Step

/-- A text cut at each of the marks in it, after the characters of the current part, the last
first. -/
def cutAt (mark : Char) (part : List Char) : List Char → List (List Char)
  | [] => [part.reverse]
  | c :: rest =>
    if c = mark then part.reverse :: cutAt mark [] rest else cutAt mark (c :: part) rest

/-- Whether a character can stand in a key of a path. -/
def isKeyChar (c : Char) : Bool :=
  c.isAlphanum || c == ' ' || c == '_' || c == '-'

/-- Drops the spaces and tabs at both ends of a text. -/
def trimmed (text : List Char) : List Char :=
  ((text.dropWhile isSpace).reverse.dropWhile isSpace).reverse
where
  isSpace (c : Char) : Bool := c == ' ' || c == '\t'

/-- The step for a number after an opening bracket. A plus is no sign of such a number. -/
def place? : List Char → Option Step
  | '[' :: index =>
    match trimmed index with
    | '+' :: _ => none
    | index => (Text.integer? (String.ofList index)).map place
  | _ => none

/-- The steps for numbers in brackets, one pair of brackets after the other. -/
def places? (text : List Char) : Option (List Step) :=
  match (cutAt ']' [] text).reverse with
  | [] :: parts => parts.reverse.mapM place?
  | _ => none

/-- The steps for a key and the brackets after it. -/
def keyed? (text : List Char) : Option (List Step) :=
  let (name, rest) := text.span isKeyChar
  if name.isEmpty then none
  else (places? rest).map fun places => key (String.ofList name) :: places

/-- The steps for which a name stands: keys with points between them, each with its brackets. -/
def path? (name : String) : Option (List Step) :=
  ((cutAt '.' [] name.toList).mapM keyed?).map List.flatten

/-- The path for which a name stands in lower case. A name that is no path is one key. -/
def path (name : String) : List Step :=
  let name := Value.loweredKey name
  (path? name).getD [key name]

/-- The place that an index means among a number of items, unless it is before the first of them. -/
def position? (count : Nat) (index : Int) : Option Nat :=
  if 0 ≤ index then some index.toNat
  else if 0 ≤ index + count then some (index + count).toNat
  else none

end Step

namespace Value

/-- The value to which a path leads. -/
def at? (value : Value) : List Step → Option Value
  | [] => some value
  | .key name :: path =>
    match value.entries.lookup name with
    | some inner => inner.at? path
    | none => none
  | .place index :: path =>
    match (Step.position? value.items.length index).bind fun n => value.items[n]? with
    | some inner => inner.at? path
    | none => none

/-- Items with the one at a place changed. Places that are needed to reach it hold nothing. -/
def changeItem (change : Value → Value) (n : Nat) (items : List Value) : List Value :=
  if n < items.length then items.modify n change
  else items ++ List.replicate (n - items.length) nothing ++ [change nothing]

/-- Sets what a path leads to. A table is merged into what stands at a key, and anything else replaces
it. What stands in the way of a step becomes a table or an array. -/
def setAt (value : Value) : List Step → Value → Value
  | [], base => base.merge value
  | .key name :: path, base =>
    let inner := (base.entries.lookup name).getD (table [])
    table (setEntry name (setAt value path inner) base.entries)
  | .place index :: path, base =>
    match Step.position? base.items.length index with
    | some n =>
      let change (item : Value) : Value :=
        if path.isEmpty then value else setAt value path item
      array (changeItem change n base.items)
    | none => base

/-- Takes away the entry to which a path leads. -/
def removeAt (value : Value) : List Step → Value
  | [] => value
  | [.key name] =>
    if value.isTable then table (value.entries.filter fun entry => entry.1 != name) else value
  | .key name :: path =>
    match value.entries.lookup name with
    | some inner => table (setEntry name (inner.removeAt path) value.entries)
    | none => value
  | .place index :: path =>
    match Step.position? value.items.length index with
    | some n => if n < value.items.length
      then array (value.items.modify n fun item => item.removeAt path) else value
    | none => value

/-- Lays a named value over a table, at the path for which its name stands. -/
def lay (base : Value) (name : String) (value : Value) : Value :=
  setAt value.lowered (Step.path name) base

/-- The table of named values, each laid over those before it. -/
def ofNamed (named : List (String × Value)) : Value :=
  named.foldl (fun base (name, value) => base.lay name value) (table [])

end Value

end SimpleLedger.Settings
