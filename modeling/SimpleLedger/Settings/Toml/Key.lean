import SimpleLedger.Settings.Toml.Quoted

namespace SimpleLedger.Settings.Toml

/-- Whether a character can stand in a key without quotes. -/
def isBare (c : Char) : Bool :=
  c.isAlphanum || c == '_' || c == '-'

/-- One part of a key, and what follows it. -/
def keyPart? (text : List Char) : Option (String × List Char) :=
  match text with
  | '"' :: rest => quoted? text.length [] rest
  | '\'' :: rest => literal? rest
  | _ =>
    let (bare, rest) := text.span isBare
    if bare.isEmpty then none else some (String.ofList bare, rest)

/-- How many parts a key can have, and how many values can stand one within the other. -/
def depthLimit : Nat := 79

/-- A key with all its parts, at most as many as allowed, and what follows it. -/
def key? (allowed : Nat) (text : List Char) : Option (List String × List Char) :=
  match allowed with
  | 0 => none
  | allowed + 1 => do
    let (part, rest) ← keyPart? (dropSpaces text)
    match dropSpaces rest with
    | '.' :: rest =>
      let (parts, rest) ← key? allowed rest
      some (part :: parts, rest)
    | rest => some ([part], rest)

end SimpleLedger.Settings.Toml
