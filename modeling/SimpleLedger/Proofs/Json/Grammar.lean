import SimpleLedger.Json.Written
import SimpleLedger.Proofs.Bytes.HexSpelling

namespace SimpleLedger.Json

/-- The letters that may follow a backslash, with the characters that they then stand for. -/
def escapes : List (Char × Char) :=
  [('"', '"'), ('\\', '\\'), ('/', '/'), ('b', '\x08'), ('f', '\x0c'), ('n', '\n'), ('r', '\r'),
    ('t', '\t')]

/-- The spellings of pieces between quotation marks: a character for itself unless it is a quotation
mark, a backslash or a control, an escape of one letter, and four hexadecimal digits of either case
for a unit. -/
inductive Piece.Spelling : List Piece → List Char → Prop
  | nil : Spelling [] []
  | plain {c : Char} {pieces : List Piece} {text : List Char} :
    c ≠ '"' → c ≠ '\\' → 32 ≤ c.toNat → Spelling pieces text →
    Spelling (.char c :: pieces) (c :: text)
  | escape {letter c : Char} {pieces : List Piece} {text : List Char} :
    (letter, c) ∈ escapes → Spelling pieces text →
    Spelling (.char c :: pieces) ('\\' :: letter :: text)
  | unit {code : Nat} {a b c d : Char} {pieces : List Piece} {text : List Char} :
    code < 0x10000 → Hex.Denotes a (code / 4096) → Hex.Denotes b (code / 256 % 16) →
    Hex.Denotes c (code / 16 % 16) → Hex.Denotes d (code % 16) → Spelling pieces text →
    Spelling (.unit code :: pieces) ('\\' :: 'u' :: a :: b :: c :: d :: text)

/-- The text that pieces mean. A unit that is no surrogate is a character, and so are a high and a
low surrogate together; a surrogate alone has no meaning. -/
inductive Piece.Meaning : List Piece → List Char → Prop
  | nil : Meaning [] []
  | char {c : Char} {pieces : List Piece} {text : List Char} : Meaning pieces text →
    Meaning (.char c :: pieces) (c :: text)
  | unit {code : Nat} {pieces : List Piece} {text : List Char} : code < 0xd800 ∨ 0xdfff < code →
    Meaning pieces text → Meaning (.unit code :: pieces) (Char.ofNat code :: text)
  | pair {high low : Nat} {pieces : List Piece} {text : List Char} : 0xd800 ≤ high →
    high < 0xdc00 → 0xdc00 ≤ low → low ≤ 0xdfff → Meaning pieces text →
    Meaning (.unit high :: .unit low :: pieces)
      (Char.ofNat (0x10000 + (high - 0xd800) * 0x400 + (low - 0xdc00)) :: text)

/-- At least one digit, and digits only. -/
def IsDigits (text : List Char) : Prop :=
  text ≠ [] ∧ ∀ c ∈ text, c.isDigit

/-- The spellings of digits after a point, which are left out with it. -/
inductive Fraction : List Char → List Char → Prop
  | none : Fraction [] []
  | some {digits : List Char} : IsDigits digits → Fraction digits ('.' :: digits)

/-- The spellings of an exponent, which may be left out. -/
inductive Exponent : Option Int → List Char → Prop
  | none : Exponent none []
  | positive {mark : Char} {sign digits : List Char} : mark = 'e' ∨ mark = 'E' →
    sign = [] ∨ sign = ['+'] → IsDigits digits →
    Exponent (some (Text.digitsValue digits)) (mark :: sign ++ digits)
  | negative {mark : Char} {digits : List Char} : mark = 'e' ∨ mark = 'E' → IsDigits digits →
    Exponent (some (-Text.digitsValue digits)) (mark :: '-' :: digits)

/-- The sign of a number. -/
def minus (negative : Bool) : List Char :=
  if negative then ['-'] else []

/-- The spellings of a number. No zero stands before other digits, and a number is whole if it has
neither point nor exponent. -/
inductive Number : Decimal → Bool → List Char → Prop
  | intro {negative : Bool} {whole fraction tail ending : List Char} {exponent : Option Int} :
    IsDigits whole → (whole.head? = some '0' → whole = ['0']) → Fraction fraction tail →
    Exponent exponent ending →
    Number (.ofDigits negative whole fraction (exponent.getD 0))
      (fraction.isEmpty && exponent.isNone)
      (minus negative ++ whole ++ tail ++ ending)

/-- A text of white space only, or none. -/
def Token.IsGap (text : List Char) : Prop :=
  ∀ c ∈ text, isSpace c

/-- What a text can spell: a value, alone or amid white space, the items of an array, or one or
several members of an object. -/
inductive Form where
  | value (written : Written)
  | element (written : Written)
  | items (writtens : List Written)
  | member (name : List Piece) (written : Written)
  | members (writtens : List (List Piece × Written))

/-- The spellings of every form. -/
inductive Spelling : Form → List Char → Prop
  | null : Spelling (.value .null) ['n', 'u', 'l', 'l']
  | true : Spelling (.value (.bool true)) ['t', 'r', 'u', 'e']
  | false : Spelling (.value (.bool false)) ['f', 'a', 'l', 's', 'e']
  | number {value : Decimal} {whole : Bool} {text : List Char} : Number value whole text →
    Spelling (.value (.number value whole)) text
  | string {pieces : List Piece} {text : List Char} : Piece.Spelling pieces text →
    Spelling (.value (.string pieces)) ('"' :: text ++ ['"'])
  | noItems {gap : List Char} : Token.IsGap gap →
    Spelling (.value (.array [])) ('[' :: gap ++ [']'])
  | array {items : List Written} {text : List Char} : Spelling (.items items) text →
    Spelling (.value (.array items)) ('[' :: text ++ [']'])
  | noMembers {gap : List Char} : Token.IsGap gap →
    Spelling (.value (.object [])) ('\x7b' :: gap ++ ['\x7d'])
  | object {members : List (List Piece × Written)} {text : List Char} :
    Spelling (.members members) text →
    Spelling (.value (.object members)) ('\x7b' :: text ++ ['\x7d'])
  | element {value : Written} {before text after : List Char} : Token.IsGap before →
    Spelling (.value value) text → Token.IsGap after →
    Spelling (.element value) (before ++ text ++ after)
  | lastItem {item : Written} {text : List Char} : Spelling (.element item) text →
    Spelling (.items [item]) text
  | moreItems {item : Written} {items : List Written} {text more : List Char} :
    Spelling (.element item) text → Spelling (.items items) more →
    Spelling (.items (item :: items)) (text ++ ',' :: more)
  | member {name : List Piece} {value : Written} {before key between text : List Char} :
    Token.IsGap before → Piece.Spelling name key → Token.IsGap between →
    Spelling (.element value) text →
    Spelling (.member name value) (before ++ '"' :: key ++ '"' :: between ++ ':' :: text)
  | lastMember {name : List Piece} {value : Written} {text : List Char} :
    Spelling (.member name value) text → Spelling (.members [(name, value)]) text
  | moreMembers {name : List Piece} {value : Written} {members : List (List Piece × Written)}
    {text more : List Char} : Spelling (.member name value) text →
    Spelling (.members members) more →
    Spelling (.members ((name, value) :: members)) (text ++ ',' :: more)

end SimpleLedger.Json
