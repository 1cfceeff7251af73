import SimpleLedger.Settings.Toml.Blank
import SimpleLedger.Text.Numeral

namespace SimpleLedger.Settings.Toml

/-- The character whose code is given by as many digits in hexadecimal as are asked for, and what
follows them. -/
def coded? (count : Nat) (text : List Char) : Option (Char × List Char) := do
  let digits := text.take count
  let n ← digits.foldlM (fun n c => (Text.hexValue? c).map (16 * n + ·)) 0
  if digits.length = count ∧ (n < 0xd800 ∨ (0xdfff < n ∧ n < 0x110000)) then
    some (Char.ofNat n, text.drop count)
  else none

/-- The character for which an escape stands, after its backslash, and what follows it. -/
def escape? : List Char → Option (Char × List Char)
  | 'b' :: rest => some ('\x08', rest)
  | 't' :: rest => some ('\t', rest)
  | 'n' :: rest => some ('\n', rest)
  | 'f' :: rest => some ('\x0c', rest)
  | 'r' :: rest => some ('\r', rest)
  | '"' :: rest => some ('"', rest)
  | '\\' :: rest => some ('\\', rest)
  | 'u' :: rest => coded? 4 rest
  | 'U' :: rest => coded? 8 rest
  | _ => none

/-- A quoted text after its first mark, and what follows it; the characters already `taken` come with
the last first. -/
def quoted? (fuel : Nat) (taken : List Char) (text : List Char) : Option (String × List Char) :=
  match fuel, text with
  | fuel + 1, c :: rest =>
    if c = '"' then some (String.ofList taken.reverse, rest)
    else if c = '\\' then
      match escape? rest with
      | some (c, rest) => quoted? fuel (c :: taken) rest
      | none => none
    else if isControl c then none
    else quoted? fuel (c :: taken) rest
  | _, _ => none

/-- A literal text after its first mark, in which nothing is escaped, and what follows it. -/
def literal? (text : List Char) : Option (String × List Char) :=
  let (inner, rest) := text.span fun c => c != '\''
  if rest.isEmpty || inner.any isControl then none
  else some (String.ofList inner, rest.drop 1)

/-- The end of a text at three marks: up to two more of them belong to the text. -/
def closed (mark : Char) (taken rest : List Char) : String × List Char :=
  let extra := min 2 (rest.takeWhile (· == mark)).length
  (String.ofList (taken.reverse ++ List.replicate extra mark), rest.drop extra)

/-- A quoted text after its first three marks, and what follows it. A backslash at the end of a line
joins the text to what comes next. -/
def longQuoted? (fuel : Nat) (taken : List Char) (text : List Char) : Option (String × List Char) :=
  match fuel, text with
  | _, '"' :: '"' :: '"' :: rest => some (closed '"' taken rest)
  | fuel + 1, c :: rest =>
    if c = '\\' then
      match newLine? (dropSpaces rest) with
      | some rest => longQuoted? fuel taken (dropLines rest)
      | none =>
        match escape? rest with
        | some (c, rest) => longQuoted? fuel (c :: taken) rest
        | none => none
    else
      match newLine? text with
      | some rest => longQuoted? fuel ('\n' :: taken) rest
      | none => if isControl c then none else longQuoted? fuel (c :: taken) rest
  | _, _ => none

/-- A literal text after its first three marks, and what follows it. -/
def longLiteral? (fuel : Nat) (taken : List Char) (text : List Char) : Option (String × List Char) :=
  match fuel, text with
  | _, '\'' :: '\'' :: '\'' :: rest => some (closed '\'' taken rest)
  | fuel + 1, c :: rest =>
    match newLine? text with
    | some rest => longLiteral? fuel ('\n' :: taken) rest
    | none => if isControl c then none else longLiteral? fuel (c :: taken) rest
  | _, _ => none

/-- A text that a value gives, and what follows it. A new line right after three marks does not
count. -/
def string? (text : List Char) : Option (String × List Char) :=
  match text with
  | '"' :: '"' :: '"' :: rest => longQuoted? text.length [] ((newLine? rest).getD rest)
  | '\'' :: '\'' :: '\'' :: rest => longLiteral? text.length [] ((newLine? rest).getD rest)
  | '"' :: rest => quoted? text.length [] rest
  | '\'' :: rest => literal? rest
  | _ => none

end SimpleLedger.Settings.Toml
