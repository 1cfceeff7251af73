import SimpleLedger.Proofs.Bytes.HexSpelling
import SimpleLedger.Proofs.Text.Printable

namespace SimpleLedger.Hex

/-- The byte is the code of a digit. -/
def IsDigitByte (b : UInt8) : Prop :=
  IsDigit (Char.ofNat b.toNat)

theorem toNat_char_of_byte (b : UInt8) : (Char.ofNat b.toNat).toNat = b.toNat :=
  Text.toNat_ofNat (by have := b.toNat_lt; omega)

theorem value?_eq_some {b : UInt8} {n : Nat} (h : value? b = some n) :
    n < 16 ∧ Denotes (Char.ofNat b.toNat) n := by
  unfold value? at h
  simp only [UInt8.le_iff_toNat_le] at h
  split at h
  next decimal =>
    cases Option.some.inj h
    have bounds : 48 ≤ b.toNat ∧ b.toNat ≤ 57 := decimal
    refine ⟨by omega, Or.inl ?_⟩
    rw [digit, if_pos (by omega), Nat.sub_add_cancel bounds.1]
  next =>
    split at h
    next lower =>
      cases Option.some.inj h
      have bounds : 97 ≤ b.toNat ∧ b.toNat ≤ 102 := lower
      refine ⟨by omega, Or.inl ?_⟩
      rw [digit, if_neg (by omega)]
      apply congrArg Char.ofNat
      show b.toNat = b.toNat - 87 - 10 + 97
      omega
    next =>
      split at h
      next upper =>
        cases Option.some.inj h
        have bounds : 65 ≤ b.toNat ∧ b.toNat ≤ 70 := upper
        refine ⟨by omega, Or.inr ?_⟩
        rw [digit, if_neg (by omega)]
        apply congrArg Char.ofNat
        show b.toNat = b.toNat - 55 - 10 + 65
        omega
      next => cases h

theorem value?_eq_none_iff {b : UInt8} : value? b = none ↔ ¬ IsDigitByte b := by
  constructor
  · rintro none ⟨n, bound, denotes⟩
    have value := denotes.value?_eq bound
    rw [toNat_char_of_byte, UInt8.ofNat_toNat, none] at value
    cases value
  · intro other
    cases value : value? b with
    | none => rfl
    | some n => exact absurd ⟨n, value?_eq_some value⟩ other

/-- Either all bytes of pairs are digits, or reading names the first that is none and its place. -/
theorem decodePairs_cases (index : Nat) (taken bytes : Bytes) (even : bytes.length % 2 = 0) :
    (∀ b ∈ bytes, IsDigitByte b) ∨
      ∃ before b after, bytes = before ++ b :: after ∧ (∀ d ∈ before, IsDigitByte d) ∧
        ¬ IsDigitByte b ∧
        decodePairs index taken bytes = .error (.badDigit b (index + before.length)) := by
  fun_induction decodePairs index taken bytes with
  | case1 => exact .inl (List.forall_mem_nil _)
  | case2 => cases even
  | case3 index taken high low rest h l second first ih =>
    have digits : IsDigitByte high ∧ IsDigitByte low :=
      ⟨⟨h, value?_eq_some first⟩, ⟨l, value?_eq_some second⟩⟩
    rcases ih (by simp only [List.length_cons] at even; omega) with all |
      ⟨before, b, after, rfl, earlier, other, read⟩
    · left
      exact List.forall_mem_cons.mpr ⟨digits.1, List.forall_mem_cons.mpr ⟨digits.2, all⟩⟩
    · right
      refine ⟨high :: low :: before, b, after, rfl, ?_, other, ?_⟩
      · exact List.forall_mem_cons.mpr ⟨digits.1, List.forall_mem_cons.mpr ⟨digits.2, earlier⟩⟩
      · rw [read]
        simp only [List.length_cons]
        congr 2
        omega
  | case4 index taken high low rest h second first =>
    right
    exact ⟨[high], low, rest, rfl, List.forall_mem_singleton.mpr ⟨h, value?_eq_some first⟩,
      value?_eq_none_iff.mp second, rfl⟩
  | case5 index taken high low rest first =>
    right
    exact ⟨[], high, low :: rest, rfl, List.forall_mem_nil _, value?_eq_none_iff.mp first, rfl⟩

/-- A text whose bytes are all digits consists of digits. -/
theorem isDigit_of_isDigitByte {text : List Char} (h : ∀ b ∈ Text.utf8 text, IsDigitByte b) :
    ∀ c ∈ text, IsDigit c := by
  intro c mem
  have bytes : ∀ b ∈ String.utf8EncodeChar c, IsDigitByte b :=
    fun b inside => h b (List.mem_flatMap.mpr ⟨c, mem, inside⟩)
  by_cases ascii : c.toNat < 128
  · rw [Text.utf8EncodeChar_of_ascii ascii] at bytes
    have digit := bytes _ List.mem_cons_self
    rwa [IsDigitByte, UInt8.toNat_ofNat_of_lt' (show c.toNat < 256 by omega),
      Char.ofNat_toNat] at digit
  · obtain ⟨some, high⟩ := Text.utf8EncodeChar_high (Nat.not_lt.mp ascii)
    obtain ⟨b, inside⟩ := List.exists_mem_of_ne_nil _ some
    have low := (bytes b inside).plain.1
    rw [toNat_char_of_byte] at low
    have := high b inside
    omega

/-- Any two digits are those of a byte. -/
theorem exists_byte {high low : Char} (first : IsDigit high) (second : IsDigit low) :
    ∃ b : UInt8, Denotes high (b.toNat / 16) ∧ Denotes low (b.toNat % 16) := by
  obtain ⟨h, boundHigh, first⟩ := first
  obtain ⟨l, boundLow, second⟩ := second
  have byte : (UInt8.ofNat (16 * h + l)).toNat = 16 * h + l :=
    UInt8.toNat_ofNat_of_lt' (show 16 * h + l < 256 by omega)
  refine ⟨UInt8.ofNat (16 * h + l), ?_, ?_⟩
  · rw [byte]
    rwa [show (16 * h + l) / 16 = h by omega]
  · rw [byte]
    rwa [show (16 * h + l) % 16 = l by omega]

/-- Digits in an even number spell bytes. -/
theorem exists_spelling (text : List Char) (even : text.length % 2 = 0)
    (digits : ∀ c ∈ text, IsDigit c) : ∃ bytes, Spelling bytes text := by
  match text with
  | [] => exact ⟨[], .nil⟩
  | [_] => cases even
  | high :: low :: rest =>
    obtain ⟨first, others⟩ := List.forall_mem_cons.mp digits
    obtain ⟨second, others⟩ := List.forall_mem_cons.mp others
    obtain ⟨bytes, spelled⟩ :=
      exists_spelling rest (by simp only [List.length_cons] at even; omega) others
    obtain ⟨b, high, low⟩ := exists_byte first second
    exact ⟨b :: bytes, .cons high low spelled⟩

end SimpleLedger.Hex
