import SimpleLedger.Settings.Toml.Content
import SimpleLedger.Text.Blank

namespace SimpleLedger.Settings.Toml

/-- Reads one line, or a key whose value takes several, and gives what follows it. -/
def line? (draft : Draft) (text : List Char) : Option (Draft × List Char) :=
  match text with
  | '[' :: '[' :: rest => do
    let (key, rest) ← key? depthLimit rest
    match rest with
    | ']' :: ']' :: rest => some (← draft.addTable? key, ← endOfLine? rest)
    | _ => none
  | '[' :: rest => do
    let (key, rest) ← key? depthLimit rest
    match rest with
    | ']' :: rest => some (← draft.openTable? key, ← endOfLine? rest)
    | _ => none
  | _ => do
    let (key, rest) ← key? depthLimit text
    match rest with
    | '=' :: rest =>
      let (value, rest) ← value? (2 * rest.length + 2) depthLimit (dropSpaces rest)
      some (← draft.set? key value, ← endOfLine? rest)
    | _ => none

/-- Reads all lines. -/
def lines? (fuel : Nat) (draft : Draft) (text : List Char) : Option Value :=
  match dropBlank text.length text with
  | [] => some draft.root
  | text =>
    match fuel with
    | 0 => none
    | fuel + 1 =>
      match line? draft text with
      | some (draft, rest) => lines? fuel draft rest
      | none => none

/-- The table of settings that a file holds. -/
def read? (text : String) : Option Value :=
  let text := Text.withoutMark text.toList
  ((lines? text.length Draft.empty text).bind dated?).filter Value.isTable

end SimpleLedger.Settings.Toml
