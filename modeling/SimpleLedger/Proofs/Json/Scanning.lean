import SimpleLedger.Proofs.Json.Grammar
import SimpleLedger.Proofs.Text.Numeral

namespace SimpleLedger.Json.Token

theorem hexValue?_of_denotes {c : Char} {n : Nat} (h : Hex.Denotes c n) (bound : n < 16) :
    Text.hexValue? c = some n := by
  have lower : ∀ n < 16, Text.hexValue? (Hex.digit 'a' n) = some n := by decide
  have upper : ∀ n < 16, Text.hexValue? (Hex.digit 'A' n) = some n := by decide
  rcases h with rfl | rfl
  · exact lower n bound
  · exact upper n bound

theorem unit?_of_denotes {code : Nat} {a b c d : Char} (bound : code < 0x10000)
    (first : Hex.Denotes a (code / 4096)) (second : Hex.Denotes b (code / 256 % 16))
    (third : Hex.Denotes c (code / 16 % 16)) (fourth : Hex.Denotes d (code % 16)) :
    unit? a b c d = some code := by
  have parts : 4096 * (code / 4096) + 256 * (code / 256 % 16) + 16 * (code / 16 % 16) +
      code % 16 = code := by omega
  rw [unit?, hexValue?_of_denotes first (by omega), hexValue?_of_denotes second (by omega),
    hexValue?_of_denotes third (by omega), hexValue?_of_denotes fourth (by omega)]
  exact congrArg some parts

theorem escape?_of_mem : ∀ escape ∈ escapes, escape? escape.1 = some escape.2 := by
  decide

theorem scanString_escape {letter c : Char} (known : escape? letter = some c) (taken : List Piece)
    (rest : List Char) :
    scanString taken ('\\' :: letter :: rest) = scanString (.char c :: taken) rest := by
  have other : letter ≠ 'u' := by
    rintro rfl
    cases known
  simp [scanString, other, known]

theorem scanString_plain {c : Char} (quote : c ≠ '"') (slash : c ≠ '\\') (high : 32 ≤ c.toNat)
    (taken : List Piece) (rest : List Char) :
    scanString taken (c :: rest) = scanString (.char c :: taken) rest := by
  simp [scanString, slash, Nat.not_lt.mpr high]

theorem scanString_of_spelling {pieces : List Piece} {text : List Char}
    (h : Piece.Spelling pieces text) (taken : List Piece) (rest : List Char) :
    scanString taken (text ++ '"' :: rest) = some (taken.reverse ++ pieces, rest) := by
  induction h generalizing taken with
  | nil => rw [List.nil_append, scanString, List.append_nil]
  | plain quote slash high _ ih =>
    rw [List.cons_append, scanString_plain quote slash high, ih, List.reverse_cons,
      List.append_assoc, List.singleton_append]
  | escape known _ ih =>
    rw [List.cons_append, List.cons_append, scanString_escape (escape?_of_mem _ known), ih,
      List.reverse_cons, List.append_assoc, List.singleton_append]
  | unit bound first second third fourth _ ih =>
    simp only [List.cons_append]
    rw [scanString, unit?_of_denotes bound first second third fourth]
    dsimp only
    rw [ih, List.reverse_cons, List.append_assoc, List.singleton_append]

theorem scan_string {pieces : List Piece} {text : List Char} (h : Piece.Spelling pieces text)
    (rest : List Char) : scan ('"' :: (text ++ '"' :: rest)) = some (.string pieces, rest) := by
  rw [scan, scanString_of_spelling h]
  rfl

/-- The text does not begin with a digit. -/
def EndsDigits (text : List Char) : Prop :=
  ∀ c ∈ text.head?, c.isDigit = false

/-- What may stand after a number: no character that would go on with it. -/
def Apart (text : List Char) : Prop :=
  ∀ c ∈ text.head?, c.isDigit = false ∧ c ∉ ['.', 'e', 'E']

theorem Apart.endsDigits {text : List Char} (h : Apart text) : EndsDigits text :=
  fun c mem => (h c mem).1

theorem apart_nil : Apart [] :=
  fun _ none => nomatch none

theorem apart_cons {c : Char} (digit : c.isDigit = false) (mark : c ∉ ['.', 'e', 'E'])
    (text : List Char) : Apart (c :: text) := by
  intro d mem
  cases mem
  exact ⟨digit, mark⟩

theorem endsDigits_cons {c : Char} (h : c.isDigit = false) (text : List Char) :
    EndsDigits (c :: text) := by
  intro d mem
  cases mem
  exact h

variable {digits text rest : List Char}

theorem scanDigits_append (all : ∀ c ∈ digits, c.isDigit) (stop : EndsDigits rest) :
    scanDigits (digits ++ rest) = (digits, rest) := by
  rw [scanDigits, Text.takeWhile_append_stop all stop, Text.dropWhile_append_stop all stop]

theorem scanFraction_of_fraction (h : Fraction digits text) (stop : EndsDigits rest)
    (point : rest.head? ≠ some '.') : scanFraction (text ++ rest) = some (digits, rest) := by
  cases h with
  | none =>
    rw [List.nil_append]
    unfold scanFraction
    split
    next text => exact absurd rfl point
    next => rfl
  | some all =>
    rw [List.cons_append, scanFraction]
    simp only [scanDigits_append all.2 stop]
    rw [if_neg (by simpa using all.1)]

theorem fraction_stops (h : Fraction digits text) (stop : EndsDigits rest) :
    EndsDigits (text ++ rest) := by
  cases h with
  | none => exact stop
  | some => exact endsDigits_cons rfl _

theorem signed_of_isDigits (all : IsDigits digits) (rest : List Char) :
    Text.signed (digits ++ rest) = (false, digits ++ rest) ∧
      scanMinus (digits ++ rest) = (false, digits ++ rest) := by
  obtain ⟨some, all⟩ := all
  obtain ⟨c, more, rfl⟩ := List.exists_cons_of_ne_nil some
  have digit : c.isDigit := all c List.mem_cons_self
  have sign (mark : Char) (h : mark.isDigit = false) : c ≠ mark := by
    rintro rfl
    rw [h] at digit
    cases digit
  have minus : c ≠ '-' := sign '-' rfl
  have plus : c ≠ '+' := sign '+' rfl
  constructor
  · simp [Text.signed, minus, plus]
  · simp [scanMinus, minus]

theorem scanExponent_of_exponent {exponent : Option Int} (h : Exponent exponent text)
    (apart : Apart rest) : scanExponent (text ++ rest) = some (exponent, rest) := by
  cases h with
  | none =>
    rw [List.nil_append]
    unfold scanExponent
    split
    next => rfl
    next c after =>
      have other : ¬ (c = 'e' ∨ c = 'E') := by
        intro mark
        apply (apart c rfl).2
        simp [mark]
      rw [if_neg other]
  | @positive mark sign digits mem signs all =>
    have unsigned : Text.signed (sign ++ (digits ++ rest)) = (false, digits ++ rest) := by
      rcases signs with rfl | rfl
      · exact (signed_of_isDigits all rest).1
      · rfl
    rw [List.cons_append, List.cons_append, List.append_assoc, scanExponent, if_pos mem]
    simp only [unsigned, scanDigits_append all.2 apart.endsDigits]
    rw [if_neg (by simpa using all.1)]
    rfl
  | negative mem all =>
    rw [List.cons_append, List.cons_append, scanExponent, if_pos mem]
    simp only [Text.signed, scanDigits_append all.2 apart.endsDigits]
    rw [if_neg (by simpa using all.1)]
    rfl

/-- An exponent goes on neither with the digits before it nor with a point. -/
theorem exponent_stops {exponent : Option Int} (h : Exponent exponent text) (apart : Apart rest) :
    EndsDigits (text ++ rest) ∧ (text ++ rest).head? ≠ some '.' := by
  have marked {mark : Char} (mem : mark = 'e' ∨ mark = 'E') (text : List Char) :
      EndsDigits (mark :: text) ∧ (mark :: text).head? ≠ some '.' := by
    rcases mem with rfl | rfl
    · exact ⟨endsDigits_cons rfl text, by simp⟩
    · exact ⟨endsDigits_cons rfl text, by simp⟩
  cases h with
  | none =>
    refine ⟨apart.endsDigits, fun point => ?_⟩
    exact (apart '.' point).2 List.mem_cons_self
  | positive mem => exact marked mem _
  | negative mem => exact marked mem _

theorem isWhole_of_isDigits (all : IsDigits digits)
    (zero : digits.head? = some '0' → digits = ['0']) : isWhole digits := by
  match digits, all with
  | [], all => exact absurd rfl all.1
  | [_], _ => rfl
  | c :: _ :: _, _ =>
    have other : c ≠ '0' := by
      rintro rfl
      cases zero rfl
    simpa [isWhole] using other

theorem scan_eq_scanNumber {c : Char} (begins : c.isDigit ∨ c = '-') (text : List Char) :
    scan (c :: text) = scanNumber (c :: text) := by
  have numeral (d : Char) (h : c = d) : d.isDigit ∨ d = '-' := h ▸ begins
  unfold scan
  split <;> first | rfl | (next h => exact absurd (numeral _ (List.cons.inj h).1) (by decide))

theorem scan_number {value : Decimal} {whole : Bool} (h : Number value whole text)
    (apart : Apart rest) : scan (text ++ rest) = some (.number value whole, rest) := by
  obtain @⟨negative, whole, fraction, tail, ending, exponent, all, zero, part, power⟩ := h
  obtain ⟨stop, point⟩ := exponent_stops power apart
  have signed : scanMinus (minus negative ++ (whole ++ (tail ++ (ending ++ rest)))) =
      (negative, whole ++ (tail ++ (ending ++ rest))) := by
    cases negative with
    | true => rfl
    | false => exact (signed_of_isDigits all _).2
  have number : scanNumber (minus negative ++ (whole ++ (tail ++ (ending ++ rest)))) =
      some (.number (.ofDigits negative whole fraction (exponent.getD 0))
        (fraction.isEmpty && exponent.isNone), rest) := by
    simp only [scanNumber, signed, scanDigits_append all.2 (fraction_stops part stop),
      isWhole_of_isDigits all zero, scanFraction_of_fraction part stop point,
      scanExponent_of_exponent power apart, if_true]
  simp only [List.append_assoc]
  rw [← number]
  cases negative with
  | true => exact scan_eq_scanNumber (.inr rfl) _
  | false =>
    obtain ⟨c, more, rfl⟩ := List.exists_cons_of_ne_nil all.1
    exact scan_eq_scanNumber (.inl (all.2 c List.mem_cons_self)) _

end SimpleLedger.Json.Token
