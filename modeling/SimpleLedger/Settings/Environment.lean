import SimpleLedger.Settings.Value

namespace SimpleLedger.Settings.Environment

/-- What the names of all variables for settings begin with, in lower case. -/
def mark : List Char :=
  "slp_oracle_".toList

/-- A name with a point in the place of each pair of underscores. -/
def withPoints : List Char → List Char
  | '_' :: '_' :: rest => '.' :: withPoints rest
  | c :: rest => c :: withPoints rest
  | [] => []

/-- The name of the setting for which a variable of some label stands, if it is one for settings. -/
def name? (label : String) : Option String :=
  (mark.isPrefixOf? (Value.loweredKey label).toList).map fun rest =>
    String.ofList (withPoints rest)

/-- The value that the text of a variable stands for: a truth value, a whole number, a number, or
else the text itself. -/
def value (text : String) : Value :=
  let lower := String.ofList (text.toList.map Char.toLower)
  if lower = "true" then .bool true
  else if lower = "false" then .bool false
  else
    match Text.integer? text with
    | some n => .int n
    | none =>
      match Binary64.ofText? text with
      | some x => .float x
      | none => .text text

/-- The setting that one variable gives, if it is one for settings. -/
def entry? (label text : String) : Option (String × Value) :=
  (name? label).map fun name => (name, value text)

end SimpleLedger.Settings.Environment
