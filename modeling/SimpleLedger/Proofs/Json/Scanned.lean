import Mathlib.Data.List.TakeWhile
import SimpleLedger.Proofs.Bytes.HexFault
import SimpleLedger.Proofs.Json.Grammar

namespace SimpleLedger.Json.Token

/-- The spellings of a token. -/
inductive Spelled : Token → List Char → Prop
  | openBrace : Spelled .openBrace ['\x7b']
  | closeBrace : Spelled .closeBrace ['\x7d']
  | openBracket : Spelled .openBracket ['[']
  | closeBracket : Spelled .closeBracket [']']
  | colon : Spelled .colon [':']
  | comma : Spelled .comma [',']
  | null : Spelled .null ['n', 'u', 'l', 'l']
  | true : Spelled (.bool true) ['t', 'r', 'u', 'e']
  | false : Spelled (.bool false) ['f', 'a', 'l', 's', 'e']
  | number {value : Decimal} {whole : Bool} {text : List Char} : Number value whole text →
    Spelled (.number value whole) text
  | string {pieces : List Piece} {text : List Char} : Piece.Spelling pieces text →
    Spelled (.string pieces) ('"' :: text ++ ['"'])

theorem hexValue?_of_ascii :
    ∀ n < 128, Text.hexValue? (Char.ofNat n) = Hex.value? (UInt8.ofNat n) := by
  decide

theorem ascii_of_hexValue? {c : Char} {n : Nat} (h : Text.hexValue? c = some n) : c.toNat < 128 := by
  simp only [Text.hexValue?, Char.le_def, UInt32.le_iff_toNat_le] at h
  have last : c.toNat ≤ '9'.toNat ∨ c.toNat ≤ 'f'.toNat ∨ c.toNat ≤ 'F'.toNat := by
    split at h
    next decimal => exact .inl decimal.2
    next =>
      split at h
      next lower => exact .inr (.inl lower.2)
      next =>
        split at h
        next upper => exact .inr (.inr upper.2)
        next => cases h
  simp only [Char.reduceToNat] at last
  omega

theorem hexValue?_eq_some {c : Char} {n : Nat} (h : Text.hexValue? c = some n) :
    n < 16 ∧ Hex.Denotes c n := by
  have low := ascii_of_hexValue? h
  have byte := hexValue?_of_ascii c.toNat low
  rw [Char.ofNat_toNat, h] at byte
  obtain ⟨bound, denotes⟩ := Hex.value?_eq_some byte.symm
  rw [UInt8.toNat_ofNat_of_lt' (show c.toNat < 256 by omega), Char.ofNat_toNat] at denotes
  exact ⟨bound, denotes⟩

theorem unit?_eq_some {a b c d : Char} {code : Nat} (h : unit? a b c d = some code) :
    code < 0x10000 ∧ Hex.Denotes a (code / 4096) ∧ Hex.Denotes b (code / 256 % 16) ∧
      Hex.Denotes c (code / 16 % 16) ∧ Hex.Denotes d (code % 16) := by
  simp only [unit?, Option.bind_eq_bind, Option.bind_eq_some_iff, Option.some.injEq] at h
  obtain ⟨i, first, j, second, k, third, l, fourth, rfl⟩ := h
  obtain ⟨i_lt, first⟩ := hexValue?_eq_some first
  obtain ⟨j_lt, second⟩ := hexValue?_eq_some second
  obtain ⟨k_lt, third⟩ := hexValue?_eq_some third
  obtain ⟨l_lt, fourth⟩ := hexValue?_eq_some fourth
  have parts : (4096 * i + 256 * j + 16 * k + l) / 4096 = i ∧
      (4096 * i + 256 * j + 16 * k + l) / 256 % 16 = j ∧
      (4096 * i + 256 * j + 16 * k + l) / 16 % 16 = k ∧
      (4096 * i + 256 * j + 16 * k + l) % 16 = l := by omega
  rw [parts.1, parts.2.1, parts.2.2.1, parts.2.2.2]
  exact ⟨by omega, first, second, third, fourth⟩

theorem mem_escapes {letter c : Char} (h : escape? letter = some c) : (letter, c) ∈ escapes := by
  unfold escape? at h
  split at h <;> first | (cases h; decide) | cases h

variable {text rest : List Char}

theorem scanString_eq_some {taken pieces : List Piece}
    (h : scanString taken text = some (pieces, rest)) :
    ∃ more spelled, pieces = taken.reverse ++ more ∧ text = spelled ++ '"' :: rest ∧
      Piece.Spelling more spelled := by
  fun_induction scanString taken text with
  | case1 => cases h
  | case2 taken text =>
    obtain ⟨rfl, rfl⟩ := Prod.mk.inj (Option.some.inj h)
    exact ⟨[], [], (List.append_nil _).symm, rfl, .nil⟩
  | case3 taken a b c d text code found ih =>
    obtain ⟨more, spelled, rfl, rfl, spelling⟩ := ih h
    obtain ⟨bound, first, second, third, fourth⟩ := unit?_eq_some found
    refine ⟨.unit code :: more, '\\' :: 'u' :: a :: b :: c :: d :: spelled, ?_, rfl,
      .unit bound first second third fourth spelling⟩
    simp
  | case4 => cases h
  | case5 taken letter text _ c found ih =>
    obtain ⟨more, spelled, rfl, rfl, spelling⟩ := ih h
    refine ⟨.char c :: more, '\\' :: letter :: spelled, ?_, rfl,
      .escape (mem_escapes found) spelling⟩
    simp
  | case6 => cases h
  | case7 => cases h
  | case8 taken c text quote _ _ plain ih =>
    obtain ⟨slash, high⟩ := not_or.mp plain
    obtain ⟨more, spelled, rfl, rfl, spelling⟩ := ih h
    refine ⟨.char c :: more, c :: spelled, ?_, rfl,
      .plain quote slash (Nat.le_of_not_lt high) spelling⟩
    simp

theorem scanDigits_eq {digits : List Char} (h : scanDigits text = (digits, rest)) :
    text = digits ++ rest ∧ ∀ c ∈ digits, c.isDigit := by
  obtain ⟨rfl, rfl⟩ := Prod.mk.inj h
  exact ⟨List.takeWhile_append_dropWhile.symm, fun _ => List.mem_takeWhile_imp⟩

theorem scanFraction_eq_some {digits : List Char} (h : scanFraction text = some (digits, rest)) :
    ∃ spelled, text = spelled ++ rest ∧ Fraction digits spelled := by
  unfold scanFraction at h
  split at h
  next text =>
    obtain ⟨found, after, parts⟩ : ∃ found after, scanDigits text = (found, after) := ⟨_, _, rfl⟩
    obtain ⟨rfl, all⟩ := scanDigits_eq parts
    rw [parts] at h
    dsimp only at h
    split at h
    next => cases h
    next some =>
      obtain ⟨rfl, rfl⟩ := Prod.mk.inj (Option.some.inj h)
      rw [List.isEmpty_iff] at some
      exact ⟨'.' :: found, rfl, .some ⟨some, all⟩⟩
  next =>
    obtain ⟨rfl, rfl⟩ := Prod.mk.inj (Option.some.inj h)
    exact ⟨[], rfl, .none⟩

theorem signed_eq {negative : Bool} (h : Text.signed text = (negative, rest)) :
    ∃ sign, text = sign ++ rest ∧
      (negative = false ∧ (sign = [] ∨ sign = ['+']) ∨ negative = true ∧ sign = ['-']) := by
  unfold Text.signed at h
  split at h
  next =>
    obtain ⟨rfl, rfl⟩ := Prod.mk.inj h
    exact ⟨['-'], rfl, .inr ⟨rfl, rfl⟩⟩
  next =>
    obtain ⟨rfl, rfl⟩ := Prod.mk.inj h
    exact ⟨['+'], rfl, .inl ⟨rfl, .inr rfl⟩⟩
  next =>
    obtain ⟨rfl, rfl⟩ := Prod.mk.inj h
    exact ⟨[], rfl, .inl ⟨rfl, .inl rfl⟩⟩

theorem scanExponent_eq_some {exponent : Option Int}
    (h : scanExponent text = some (exponent, rest)) :
    ∃ spelled, text = spelled ++ rest ∧ Exponent exponent spelled := by
  unfold scanExponent at h
  split at h
  next =>
    obtain ⟨rfl, rfl⟩ := Prod.mk.inj (Option.some.inj h)
    exact ⟨[], rfl, .none⟩
  next mark text =>
    split at h
    next marks =>
      obtain ⟨negative, unsigned, sign⟩ : ∃ negative unsigned,
        Text.signed text = (negative, unsigned) := ⟨_, _, rfl⟩
      obtain ⟨digits, after, parts⟩ : ∃ digits after, scanDigits unsigned = (digits, after) :=
        ⟨_, _, rfl⟩
      rw [sign] at h
      dsimp only at h
      rw [parts] at h
      dsimp only at h
      obtain ⟨signs, rfl, marked⟩ := signed_eq sign
      obtain ⟨rfl, all⟩ := scanDigits_eq parts
      split at h
      next => cases h
      next some =>
        obtain ⟨rfl, rfl⟩ := Prod.mk.inj (Option.some.inj h)
        rw [List.isEmpty_iff] at some
        rcases marked with ⟨rfl, plus⟩ | ⟨rfl, rfl⟩
        · refine ⟨mark :: signs ++ digits, ?_, .positive marks plus ⟨some, all⟩⟩
          simp
        · exact ⟨mark :: '-' :: digits, rfl, .negative marks ⟨some, all⟩⟩
    next =>
      obtain ⟨rfl, rfl⟩ := Prod.mk.inj (Option.some.inj h)
      exact ⟨[], rfl, .none⟩

theorem isDigits_of_isWhole {digits : List Char} (h : isWhole digits)
    (all : ∀ c ∈ digits, c.isDigit) :
    IsDigits digits ∧ (digits.head? = some '0' → digits = ['0']) := by
  match digits, h with
  | [c], _ =>
    refine ⟨⟨List.cons_ne_nil _ _, all⟩, fun zero => ?_⟩
    rw [Option.some.inj zero]
  | c :: d :: digits, h =>
    refine ⟨⟨List.cons_ne_nil _ _, all⟩, fun zero => ?_⟩
    obtain rfl := Option.some.inj zero
    cases h

theorem scanMinus_eq {negative : Bool} (h : scanMinus text = (negative, rest)) :
    text = minus negative ++ rest := by
  unfold scanMinus at h
  split at h
  next =>
    obtain ⟨rfl, rfl⟩ := Prod.mk.inj h
    rfl
  next =>
    obtain ⟨rfl, rfl⟩ := Prod.mk.inj h
    rfl

theorem scanNumber_eq_some {token : Token} (h : scanNumber text = some (token, rest)) :
    ∃ spelled, text = spelled ++ rest ∧ Spelled token spelled := by
  obtain ⟨negative, unsigned, sign⟩ : ∃ negative unsigned,
    scanMinus text = (negative, unsigned) := ⟨_, _, rfl⟩
  obtain ⟨whole, after, parts⟩ : ∃ whole after, scanDigits unsigned = (whole, after) := ⟨_, _, rfl⟩
  simp only [scanNumber, sign, parts] at h
  obtain rfl := scanMinus_eq sign
  obtain ⟨rfl, all⟩ := scanDigits_eq parts
  split at h
  next isWhole =>
    obtain ⟨digits, zero⟩ := isDigits_of_isWhole isWhole all
    split at h
    next => cases h
    next fraction rest' found =>
      split at h
      next => cases h
      next exponent rest'' found' =>
        obtain ⟨rfl, rfl⟩ := Prod.mk.inj (Option.some.inj h)
        obtain ⟨tail, rfl, part⟩ := scanFraction_eq_some found
        obtain ⟨ending, rfl, power⟩ := scanExponent_eq_some found'
        refine ⟨_, ?_, .number (@Number.intro negative _ _ _ _ _ digits zero part power)⟩
        simp
  next => cases h

/-- A token that is scanned is spelled by the text before what is left. -/
theorem scan_eq_some {token : Token} (h : scan text = some (token, rest)) :
    ∃ spelled, text = spelled ++ rest ∧ Spelled token spelled := by
  unfold scan at h
  split at h
  case h_7 text =>
    obtain ⟨⟨pieces, after⟩, found, eq⟩ := Option.map_eq_some_iff.mp h
    obtain ⟨rfl, rfl⟩ := Prod.mk.inj eq
    obtain ⟨more, spelled, rfl, rfl, spelling⟩ := scanString_eq_some found
    exact ⟨'"' :: spelled ++ ['"'], by simp, .string spelling⟩
  case h_11 => exact scanNumber_eq_some h
  all_goals
    obtain ⟨rfl, rfl⟩ := Prod.mk.inj (Option.some.inj h)
    exact ⟨_, rfl, by constructor⟩

end SimpleLedger.Json.Token
