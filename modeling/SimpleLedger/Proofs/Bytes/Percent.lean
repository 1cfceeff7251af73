import SimpleLedger.Proofs.Bytes.HexFault

namespace SimpleLedger.Percent

/-- The text begins with two hexadecimal digits. -/
def BeginsPair (text : List Char) : Prop :=
  ∃ high low rest, text = high :: low :: rest ∧ Hex.IsDigit high ∧ Hex.IsDigit low

/-- The spellings of bytes: an escape in digits of either case for any byte, a character other than
the percent sign for its own bytes, and a percent sign without two digits for itself. -/
inductive Spelling : Bytes → List Char → Prop
  | nil : Spelling [] []
  | escape {b : UInt8} {high low : Char} {bytes : Bytes} {segment : List Char} :
    Hex.Denotes high (b.toNat / 16) → Hex.Denotes low (b.toNat % 16) → Spelling bytes segment →
    Spelling (b :: bytes) ('%' :: high :: low :: segment)
  | literal {c : Char} {bytes : Bytes} {segment : List Char} :
    c ≠ '%' → Spelling bytes segment → Spelling (String.utf8EncodeChar c ++ bytes) (c :: segment)
  | stray {bytes : Bytes} {segment : List Char} :
    ¬ BeginsPair segment → Spelling bytes segment → Spelling (0x25 :: bytes) ('%' :: segment)

theorem decodeOnto_of_ne {b : UInt8} (other : b ≠ 0x25) (taken rest : Bytes) :
    decodeOnto taken (b :: rest) = decodeOnto (b :: taken) rest := by
  match rest with
  | [] => rfl
  | [_] => rfl
  | high :: low :: rest =>
    have mark : (b == 0x25) = false := beq_eq_false_iff_ne.mpr other
    rw [decodeOnto]
    simp only [mark]

theorem decodeOnto_append {run : Bytes} (plain : ∀ b ∈ run, b ≠ 0x25) (taken rest : Bytes) :
    decodeOnto taken (run ++ rest) = decodeOnto (run.reverse ++ taken) rest := by
  induction run generalizing taken with
  | nil => rfl
  | cons b run ih =>
    obtain ⟨first, others⟩ := List.forall_mem_cons.mp plain
    rw [List.cons_append, decodeOnto_of_ne first, ih others, List.reverse_cons, List.append_assoc,
      List.singleton_append]

theorem decodeOnto_escape {high low : UInt8} {h l : Nat} (first : Hex.value? high = some h)
    (second : Hex.value? low = some l) (taken rest : Bytes) :
    decodeOnto taken (0x25 :: high :: low :: rest) =
      decodeOnto (UInt8.ofNat (16 * h + l) :: taken) rest := by
  rw [decodeOnto, first, second]
  rfl

theorem decodeOnto_stray {rest : Bytes}
    (alone : ∀ high low more, rest = high :: low :: more →
      ¬ (Hex.IsDigitByte high ∧ Hex.IsDigitByte low)) (taken : Bytes) :
    decodeOnto taken (0x25 :: rest) = decodeOnto (0x25 :: taken) rest := by
  match rest with
  | [] => rfl
  | [_] => rfl
  | high :: low :: rest =>
    have faulty := alone high low rest rfl
    by_cases digit : Hex.IsDigitByte high
    · have none : Hex.value? low = none :=
        Hex.value?_eq_none_iff.mpr fun other => faulty ⟨digit, other⟩
      rw [decodeOnto, none]
      simp
    · rw [decodeOnto, Hex.value?_eq_none_iff.mpr digit]
      simp

theorem ne_mark_of_mem {c : Char} (other : c ≠ '%') :
    ∀ b ∈ String.utf8EncodeChar c, b ≠ 0x25 := by
  by_cases ascii : c.toNat < 128
  · rw [Text.utf8EncodeChar_of_ascii ascii]
    intro b mem same
    have code := congrArg UInt8.toNat ((List.mem_singleton.mp mem).symm.trans same)
    rw [UInt8.toNat_ofNat_of_lt' (show c.toNat < 256 by omega)] at code
    exact other (Char.toNat_inj.mp code)
  · rintro b mem rfl
    have := (Text.utf8EncodeChar_high (Nat.not_lt.mp ascii)).2 _ mem
    exact absurd this (by decide)

/-- A byte that is the code of a digit, at the front of a text, is that digit. -/
theorem exists_digit_of_utf8 {text : List Char} {b : UInt8} {more : Bytes}
    (front : Text.utf8 text = b :: more) (digit : Hex.IsDigitByte b) :
    ∃ c rest, text = c :: rest ∧ Hex.IsDigit c ∧ Text.utf8 rest = more := by
  cases text with
  | nil => cases front
  | cons c rest =>
    rw [Text.utf8, List.flatMap_cons, ← Text.utf8] at front
    by_cases ascii : c.toNat < 128
    · rw [Text.utf8EncodeChar_of_ascii ascii, List.singleton_append] at front
      obtain ⟨rfl, rfl⟩ := List.cons.inj front
      rw [Hex.IsDigitByte, UInt8.toNat_ofNat_of_lt' (show c.toNat < 256 by omega),
        Char.ofNat_toNat] at digit
      exact ⟨c, rest, rfl, digit, rfl⟩
    · obtain ⟨some, high⟩ := Text.utf8EncodeChar_high (Nat.not_lt.mp ascii)
      obtain ⟨d, others, bytes⟩ := List.exists_cons_of_ne_nil some
      rw [bytes, List.cons_append] at front
      obtain ⟨rfl, _⟩ := List.cons.inj front
      have large := high d (bytes ▸ List.mem_cons_self)
      have low := digit.plain.1
      rw [Hex.toNat_char_of_byte] at low
      omega

theorem beginsPair_of_utf8 {segment : List Char} {high low : UInt8} {more : Bytes}
    (front : Text.utf8 segment = high :: low :: more) (first : Hex.IsDigitByte high)
    (second : Hex.IsDigitByte low) : BeginsPair segment := by
  obtain ⟨c, rest, rfl, digit, remaining⟩ := exists_digit_of_utf8 front first
  obtain ⟨d, rest, rfl, digit', _⟩ := exists_digit_of_utf8 remaining second
  exact ⟨c, d, rest, rfl, digit, digit'⟩

theorem Spelling.decodeOnto_utf8 {bytes : Bytes} {segment : List Char}
    (h : Spelling bytes segment) (taken : Bytes) :
    decodeOnto taken (Text.utf8 segment) = taken.reverse ++ bytes := by
  induction h generalizing taken with
  | nil => exact (List.append_nil _).symm
  | @escape b high low bytes segment first second _ ih =>
    have bound := b.toNat_lt
    have ascii : Text.IsAscii ['%', high, low] := by
      have digits : Hex.IsDigit high ∧ Hex.IsDigit low :=
        ⟨⟨_, by omega, first⟩, ⟨_, by omega, second⟩⟩
      simp only [Text.IsAscii, List.forall_mem_cons]
      exact ⟨by decide, digits.1.plain.1, digits.2.plain.1, List.forall_mem_nil _⟩
    have front : Text.utf8 ('%' :: high :: low :: segment) =
        0x25 :: UInt8.ofNat high.toNat :: UInt8.ofNat low.toNat :: Text.utf8 segment := by
      rw [show '%' :: high :: low :: segment = ['%', high, low] ++ segment from rfl,
        Text.utf8_append, Text.utf8_of_isAscii ascii]
      rfl
    have byte : UInt8.ofNat (16 * (b.toNat / 16) + b.toNat % 16) = b := by
      rw [Nat.div_add_mod, UInt8.ofNat_toNat]
    rw [front, decodeOnto_escape (first.value?_eq (by omega)) (second.value?_eq (by omega)), byte,
      ih, List.reverse_cons, List.append_assoc, List.singleton_append]
  | @literal c bytes segment other _ ih =>
    have front : Text.utf8 (c :: segment) = String.utf8EncodeChar c ++ Text.utf8 segment :=
      List.flatMap_cons
    rw [front, decodeOnto_append (ne_mark_of_mem other), ih, List.reverse_append,
      List.reverse_reverse, List.append_assoc]
  | @stray bytes segment alone _ ih =>
    have front : Text.utf8 ('%' :: segment) = 0x25 :: Text.utf8 segment := rfl
    have single : ∀ high low more, Text.utf8 segment = high :: low :: more →
        ¬ (Hex.IsDigitByte high ∧ Hex.IsDigitByte low) :=
      fun high low more eq digits => alone (beginsPair_of_utf8 eq digits.1 digits.2)
    rw [front, decodeOnto_stray single, ih, List.reverse_cons, List.append_assoc,
      List.singleton_append]

theorem Spelling.decode_utf8 {bytes : Bytes} {segment : List Char} (h : Spelling bytes segment) :
    decode (Text.utf8 segment) = bytes :=
  h.decodeOnto_utf8 []

/-- A text without percent signs spells its own bytes. -/
theorem spelling_self {segment : List Char} (plain : '%' ∉ segment) :
    Spelling (Text.utf8 segment) segment := by
  induction segment with
  | nil => exact .nil
  | cons c segment ih =>
    have apart : '%' ≠ c ∧ '%' ∉ segment := List.ne_and_not_mem_of_not_mem_cons plain
    exact .literal (Ne.symm apart.1) (ih apart.2)

/-- Every segment spells some bytes. -/
theorem exists_spelled (segment : List Char) : ∃ bytes, Spelling bytes segment := by
  match segment with
  | [] => exact ⟨[], .nil⟩
  | c :: rest =>
    obtain ⟨bytes, spelled⟩ := exists_spelled rest
    by_cases mark : c = '%'
    · subst c
      by_cases pair : BeginsPair rest
      · obtain ⟨high, low, rest, rfl, first, second⟩ := pair
        obtain ⟨bytes, spelled⟩ := exists_spelled rest
        obtain ⟨b, first, second⟩ := Hex.exists_byte first second
        exact ⟨b :: bytes, .escape first second spelled⟩
      · exact ⟨0x25 :: bytes, .stray pair spelled⟩
    · exact ⟨String.utf8EncodeChar c ++ bytes, .literal mark spelled⟩
termination_by segment.length

end SimpleLedger.Percent
