namespace SimpleLedger.Settings.Toml

/-- Whether a character may not stand in a comment or a text: a control other than the tab. -/
def isControl (c : Char) : Bool :=
  c.toNat == 0x7f || (c.toNat < 0x20 && c != '\t')

/-- Drops spaces and tabs. -/
def dropSpaces (text : List Char) : List Char :=
  text.dropWhile fun c => c == ' ' || c == '\t'

/-- What follows the end of a line. -/
def newLine? : List Char → Option (List Char)
  | '\n' :: rest => some rest
  | '\r' :: '\n' :: rest => some rest
  | _ => none

/-- Drops the rest of a line: spaces and a comment. What follows must be a new line or the end. -/
def endOfLine? (text : List Char) : Option (List Char) :=
  let rest := match dropSpaces text with
    | '#' :: rest => rest.dropWhile fun c => !isControl c
    | rest => rest
  if rest.isEmpty then some [] else newLine? rest

/-- Drops all white space, line ends and comments. -/
def dropBlank (fuel : Nat) (text : List Char) : List Char :=
  match fuel with
  | 0 => text
  | fuel + 1 =>
    match dropSpaces text with
    | [] => []
    | rest =>
      match endOfLine? rest with
      | some after => dropBlank fuel after
      | none => rest

/-- Drops all white space and line ends. -/
def dropLines : List Char → List Char
  | ' ' :: rest => dropLines rest
  | '\t' :: rest => dropLines rest
  | '\n' :: rest => dropLines rest
  | '\r' :: '\n' :: rest => dropLines rest
  | rest => rest

end SimpleLedger.Settings.Toml
