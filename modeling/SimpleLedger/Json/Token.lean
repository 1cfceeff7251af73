import SimpleLedger.Decimal

namespace SimpleLedger.Json

/-- A part of a string as written: a character, or the 16-bit unit of a numeric escape. -/
inductive Piece where
  | char (c : Char)
  | unit (code : Nat)
deriving DecidableEq

/-- The characters that pieces stand for, after those already `taken`, the last first. Two units of
a surrogate pair are one character; a surrogate that stands alone is none. -/
def Piece.charsOnto? (taken : List Char) : List Piece → Option (List Char)
  | [] => some taken.reverse
  | .char c :: rest => charsOnto? (c :: taken) rest
  | .unit high :: rest =>
    if high < 0xd800 ∨ 0xdfff < high then charsOnto? (Char.ofNat high :: taken) rest
    else
      match rest with
      | .unit low :: rest =>
        if high < 0xdc00 ∧ 0xdc00 ≤ low ∧ low ≤ 0xdfff then
          let code := 0x10000 + (high - 0xd800) * 0x400 + (low - 0xdc00)
          charsOnto? (Char.ofNat code :: taken) rest
        else none
      | _ => none

def Piece.text? (pieces : List Piece) : Option String :=
  (charsOnto? [] pieces).map String.ofList

/-- A token of a JSON text. A number is whole if it has neither point nor exponent. -/
inductive Token where
  | openBrace
  | closeBrace
  | openBracket
  | closeBracket
  | colon
  | comma
  | null
  | bool (value : Bool)
  | number (value : Decimal) (whole : Bool)
  | string (pieces : List Piece)
deriving DecidableEq

namespace Token

/-- The unit that four hexadecimal digits stand for. -/
def unit? (a b c d : Char) : Option Nat := do
  let a ← Text.hexValue? a
  let b ← Text.hexValue? b
  let c ← Text.hexValue? c
  let d ← Text.hexValue? d
  some (4096 * a + 256 * b + 16 * c + d)

/-- The character that a one-letter escape stands for. -/
def escape? : Char → Option Char
  | '"' => some '"'
  | '\\' => some '\\'
  | '/' => some '/'
  | 'b' => some '\x08'
  | 'f' => some '\x0c'
  | 'n' => some '\n'
  | 'r' => some '\r'
  | 't' => some '\t'
  | _ => none

/-- The pieces up to the closing quotation mark, after those already `taken`, the last first, and
what follows it. Controls must be escaped. -/
def scanString (taken : List Piece) : List Char → Option (List Piece × List Char)
  | [] => none
  | '"' :: rest => some (taken.reverse, rest)
  | '\\' :: 'u' :: a :: b :: c :: d :: rest =>
    match unit? a b c d with
    | some code => scanString (.unit code :: taken) rest
    | none => none
  | '\\' :: c :: rest =>
    match escape? c with
    | some c => scanString (.char c :: taken) rest
    | none => none
  | c :: rest => if c = '\\' ∨ c.toNat < 32 then none else scanString (.char c :: taken) rest

/-- The digits that a text begins with, and what follows them. -/
def scanDigits (text : List Char) : List Char × List Char :=
  (text.takeWhile Char.isDigit, text.dropWhile Char.isDigit)

/-- The digits after a point, if there is one, and what follows them. -/
def scanFraction : List Char → Option (List Char × List Char)
  | '.' :: text =>
    let (digits, rest) := scanDigits text
    if digits.isEmpty then none else some (digits, rest)
  | text => some ([], text)

/-- The exponent, if there is one, and what follows it. -/
def scanExponent (text : List Char) : Option (Option Int × List Char) :=
  match text with
  | [] => some (none, text)
  | c :: after =>
    if c = 'e' ∨ c = 'E' then
      let (negative, unsigned) := Text.signed after
      let (digits, rest) := scanDigits unsigned
      if digits.isEmpty then none
      else
        let n : Int := Text.digitsValue digits
        some (some (if negative then -n else n), rest)
    else some (none, text)

/-- Whether a text begins with a minus, and the text after it. -/
def scanMinus : List Char → Bool × List Char
  | '-' :: text => (true, text)
  | text => (false, text)

/-- Whether digits can stand before the point of a number: at least one, and no zero before others. -/
def isWhole : List Char → Bool
  | [] => false
  | [_] => true
  | c :: _ => c != '0'

/-- The number that a text begins with, and what follows it. -/
def scanNumber (text : List Char) : Option (Token × List Char) :=
  let (negative, unsigned) := scanMinus text
  let (whole, rest) := scanDigits unsigned
  if isWhole whole then
    match scanFraction rest with
    | none => none
    | some (fraction, rest) =>
      match scanExponent rest with
      | none => none
      | some (exponent, rest) =>
        let value := Decimal.ofDigits negative whole fraction (exponent.getD 0)
        some (number value (fraction.isEmpty && exponent.isNone), rest)
  else none

/-- The token that a text begins with, and what follows it. -/
def scan (text : List Char) : Option (Token × List Char) :=
  match text with
  | '\x7b' :: rest => some (openBrace, rest)
  | '\x7d' :: rest => some (closeBrace, rest)
  | '[' :: rest => some (openBracket, rest)
  | ']' :: rest => some (closeBracket, rest)
  | ':' :: rest => some (colon, rest)
  | ',' :: rest => some (comma, rest)
  | '"' :: rest => (scanString [] rest).map fun (pieces, rest) => (string pieces, rest)
  | 'n' :: 'u' :: 'l' :: 'l' :: rest => some (null, rest)
  | 't' :: 'r' :: 'u' :: 'e' :: rest => some (bool true, rest)
  | 'f' :: 'a' :: 'l' :: 's' :: 'e' :: rest => some (bool false, rest)
  | _ => scanNumber text

theorem scanString_length {taken pieces : List Piece} {text rest : List Char}
    (h : scanString taken text = some (pieces, rest)) : rest.length < text.length := by
  fun_induction scanString taken text with
  | case1 => simp at h
  | case2 =>
    obtain ⟨_, rfl⟩ := Prod.mk.inj (Option.some.inj h)
    simp
  | case3 _ _ _ _ _ _ _ _ ih =>
    have := ih h
    simp only [List.length_cons]
    omega
  | case4 => simp at h
  | case5 _ _ _ _ _ _ ih =>
    have := ih h
    simp only [List.length_cons]
    omega
  | case6 => simp at h
  | case7 => simp at h
  | case8 _ _ _ _ _ _ _ ih =>
    have := ih h
    simp only [List.length_cons]
    omega

theorem scanDigits_length (text : List Char) :
    (scanDigits text).1.length + (scanDigits text).2.length = text.length := by
  have h : (scanDigits text).1 ++ (scanDigits text).2 = text := List.takeWhile_append_dropWhile
  rw [← List.length_append, h]

theorem scanFraction_length {text digits rest : List Char}
    (h : scanFraction text = some (digits, rest)) : rest.length ≤ text.length := by
  unfold scanFraction at h
  split at h
  next text =>
    have := scanDigits_length text
    simp only at h
    split at h
    · simp at h
    · obtain ⟨_, rfl⟩ := Prod.mk.inj (Option.some.inj h)
      simp only [List.length_cons]
      omega
  next => simp_all

theorem scanExponent_length {text rest : List Char} {exponent : Option Int}
    (h : scanExponent text = some (exponent, rest)) : rest.length ≤ text.length := by
  unfold scanExponent at h
  split at h
  next => simp_all
  next c after =>
    have hs : (Text.signed after).2.length ≤ after.length := by
      unfold Text.signed
      split <;> simp
    have := scanDigits_length (Text.signed after).2
    split at h
    · simp only at h
      split at h
      · simp at h
      · obtain ⟨_, rfl⟩ := Prod.mk.inj (Option.some.inj h)
        simp only [List.length_cons]
        omega
    · obtain ⟨_, rfl⟩ := Prod.mk.inj (Option.some.inj h)
      exact Nat.le_refl _

theorem scanMinus_length (text : List Char) : (scanMinus text).2.length ≤ text.length := by
  unfold scanMinus
  split <;> simp

theorem scanNumber_length {text rest : List Char} {token : Token}
    (h : scanNumber text = some (token, rest)) : rest.length < text.length := by
  simp only [scanNumber] at h
  split at h
  next hw =>
    have hpos : 0 < (scanDigits (scanMinus text).2).1.length := by
      apply List.length_pos_iff.mpr
      intro hn
      simp [hn, isWhole] at hw
    have hm := scanMinus_length text
    have hd := scanDigits_length (scanMinus text).2
    split at h
    · simp at h
    next hf =>
      have hf := scanFraction_length hf
      split at h
      · simp at h
      next he =>
        have he := scanExponent_length he
        obtain ⟨_, rfl⟩ := Prod.mk.inj (Option.some.inj h)
        omega
  next => simp at h

theorem scan_length {text rest : List Char} {token : Token}
    (h : scan text = some (token, rest)) : rest.length < text.length := by
  unfold scan at h
  split at h
  case h_7 =>
    obtain ⟨⟨pieces, after⟩, hs, he⟩ := Option.map_eq_some_iff.mp h
    obtain ⟨_, rfl⟩ := Prod.mk.inj he
    have := scanString_length hs
    simp only [List.length_cons]
    omega
  case h_11 => exact scanNumber_length h
  all_goals
    obtain ⟨_, rfl⟩ := Prod.mk.inj (Option.some.inj h)
    simp only [List.length_cons]
    omega

/-- The white space between tokens. -/
def isSpace (c : Char) : Bool :=
  c == ' ' || c == '\n' || c == '\r' || c == '\t'

/-- The tokens of a text, after those already `taken`, the last first. -/
def allFrom (taken : List Token) (text : List Char) : Option (List Token) :=
  match text with
  | [] => some taken.reverse
  | c :: rest =>
    if isSpace c then allFrom taken rest
    else
      match _read : scan (c :: rest) with
      | some (token, after) => allFrom (token :: taken) after
      | none => none
termination_by text.length
decreasing_by
  · simp
  · exact scan_length ‹_›

/-- The tokens of a text, if it consists of tokens and white space. -/
def all? (text : List Char) : Option (List Token) :=
  allFrom [] text

end Token

end SimpleLedger.Json
