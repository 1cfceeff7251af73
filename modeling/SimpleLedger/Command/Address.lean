import SimpleLedger.Text.Numeral

namespace SimpleLedger.Command.Address

/-- The parts of a text between the places of a character, after the current part, the last first. -/
def cut (mark : Char) (part : List Char) : List Char → List (List Char)
  | [] => [part.reverse]
  | c :: rest => if c = mark then part.reverse :: cut mark [] rest else cut mark (c :: part) rest

/-- A number below a bound; zeros may stand before it. -/
def isBelow (bound : Nat) (text : List Char) : Bool :=
  match Text.natural? text with
  | some n => n < bound
  | none => false

/-- A part of an IPv4 address is below 256 and has no zero before other digits. -/
def isOctet (text : List Char) : Bool :=
  text.length ≤ 3 && isBelow 256 text && (text.length ≤ 1 || text.head? != some '0')

/-- Whether a text is an IPv4 address. -/
def isV4 (text : List Char) : Bool :=
  let parts := cut '.' [] text
  parts.length == 4 && parts.all isOctet

/-- A part of an IPv6 address is one to four hexadecimal digits. -/
def isGroup (text : List Char) : Bool :=
  1 ≤ text.length && text.length ≤ 4 &&
    text.all fun c => c.isDigit || ('a' ≤ c && c ≤ 'f') || ('A' ≤ c && c ≤ 'F')

/-- The number of 16-bit groups that parts stand for, if the last may be an IPv4 address. -/
def groups? : List (List Char) → Option Nat
  | [] => some 0
  | [part] => if isGroup part then some 1 else if isV4 part then some 2 else none
  | part :: rest => if isGroup part then (groups? rest).map (· + 1) else none

/-- The text before and after the first pair of colons, if there is one. -/
def splitGap? (before : List Char) : List Char → Option (List Char × List Char)
  | ':' :: ':' :: rest => some (before.reverse, rest)
  | c :: rest => splitGap? (c :: before) rest
  | [] => none

/-- The parts of a text between colons. An empty text has none. -/
def colonParts (text : List Char) : List (List Char) :=
  if text.isEmpty then [] else cut ':' [] text

/-- Whether a text is an IPv6 address: eight groups, or fewer around a pair of colons. -/
def isV6 (text : List Char) : Bool :=
  match splitGap? [] text with
  | none => groups? (colonParts text) == some 8
  | some (head, tail) =>
    match (colonParts head).all isGroup, groups? (colonParts tail) with
    | true, some n => (colonParts head).length + n ≤ 7
    | _, _ => false

def isPort (text : List Char) : Bool :=
  isBelow UInt16.size text

/-- Whether a text is a socket address. An IPv6 address may name a numbered scope. -/
def isSocket (text : List Char) : Bool :=
  match text with
  | '[' :: rest =>
    let (host, rest) := rest.span fun c => c != ']'
    let (address, scope) := host.span fun c => c != '%'
    match rest with
    | ']' :: ':' :: port =>
      isV6 address && (scope.isEmpty || isBelow UInt32.size (scope.drop 1)) && isPort port
    | _ => false
  | _ =>
    let (address, rest) := text.span fun c => c != ':'
    match rest with
    | ':' :: port => isV4 address && isPort port
    | _ => false

end SimpleLedger.Command.Address
