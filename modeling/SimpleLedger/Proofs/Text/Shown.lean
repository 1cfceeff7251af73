import SimpleLedger.Text.Shown
import SimpleLedger.Proofs.Bytes.HexFault
import SimpleLedger.Proofs.Text.Numeral

namespace SimpleLedger.Text

/-- The characters that are shown by a backslash and a letter. -/
def escapes : List (Char × Char) :=
  [('\'', '\''), ('\\', '\\'), ('\t', 't'), ('\n', 'n'), ('\r', 'r'), ('\x00', '0')]

theorem toList_shown_of_escape :
    ∀ escape ∈ escapes, (shown escape.1).toList = ['\'', '\\', escape.2, '\''] := by
  decide

theorem escapes_snd_inj : ∀ one ∈ escapes, ∀ other ∈ escapes, one.2 = other.2 → one = other := by
  decide

section Plain

variable {c : Char}

theorem shownChar_of_plain (plain : c ∉ escapes.map Prod.fst) : shownChar '\'' c =
    if isPrinted c then c.toString else "\\u\x7b" ++ hexDigits c.toNat ++ "\x7d" := by
  simp only [escapes, List.map_cons, List.map_nil, List.mem_cons, List.not_mem_nil, or_false,
    not_or] at plain
  obtain ⟨quote, slash, tab, line, back, null⟩ := plain
  have null : c.toNat ≠ 0 := fun zero => null (Char.toNat_inj.mp zero)
  simp only [shownChar, beq_iff_eq, quote, slash, tab, line, back, null, if_false]

theorem toList_shown_of_printed (plain : c ∉ escapes.map Prod.fst) (printed : isPrinted c) :
    (shown c).toList = ['\'', c, '\''] := by
  rw [shown, shownChar_of_plain plain, if_pos printed]
  simp

theorem toList_shown_of_unprinted (plain : c ∉ escapes.map Prod.fst) (other : ¬ isPrinted c) :
    (shown c).toList =
      '\'' :: '\\' :: 'u' :: '\x7b' :: (Nat.toDigits 16 c.toNat ++ ['\x7d', '\'']) := by
  rw [shown, shownChar_of_plain plain, if_neg other]
  simp [hexDigits]

end Plain

theorem shown_cases (c : Char) :
    (∃ escape ∈ escapes, escape.1 = c ∧ (shown c).toList = ['\'', '\\', escape.2, '\'']) ∨
      (shown c).toList = ['\'', c, '\''] ∨
      (shown c).toList =
        '\'' :: '\\' :: 'u' :: '\x7b' :: (Nat.toDigits 16 c.toNat ++ ['\x7d', '\'']) := by
  by_cases plain : c ∈ escapes.map Prod.fst
  · obtain ⟨escape, mem, rfl⟩ := List.mem_map.mp plain
    exact Or.inl ⟨escape, mem, rfl, toList_shown_of_escape escape mem⟩
  · by_cases printed : isPrinted c
    · exact Or.inr (Or.inl (toList_shown_of_printed plain printed))
    · exact Or.inr (Or.inr (toList_shown_of_unprinted plain printed))

/-- No two characters are shown alike. -/
theorem shown_inj {c c' : Char} : shown c = shown c' ↔ c = c' := by
  refine ⟨fun h => ?_, congrArg shown⟩
  have same := congrArg String.toList h
  -- the three forms differ in their lengths
  rcases shown_cases c with ⟨escape, mem, rfl, chars⟩ | chars | chars <;>
    rcases shown_cases c' with ⟨escape', mem', rfl, chars'⟩ | chars' | chars' <;>
    rw [chars, chars'] at same
  case inl.inl =>
    have letters : escape.2 = escape'.2 := by simpa using same
    exact congrArg Prod.fst (escapes_snd_inj escape mem escape' mem' letters)
  case inr.inl.inr.inl => simpa using same
  case inr.inr.inr.inr =>
    have digits : Nat.toDigits 16 c.toNat = Nat.toDigits 16 c'.toNat := by simpa using same
    exact Char.toNat_inj.mp ((toDigits_inj (by decide) (by decide)).mp digits)
  all_goals simp at same

/-- How a byte is shown as the character of its code: in single quotes, as itself or by an escape. -/
inductive ByteShown (b : UInt8) : String → Prop
  | itself : 0x20 ≤ b.toNat ∧ b.toNat ≤ 0x7e ∨ 0xa1 ≤ b.toNat → b.toNat ∉ [0x27, 0x5c, 0xad] →
    ByteShown b s!"'{Char.ofNat b.toNat}'"
  | letter {c : Char} : (b.toNat, c) ∈
      [(0x00, '0'), (0x09, 't'), (0x0a, 'n'), (0x0d, 'r'), (0x27, '\''), (0x5c, '\\')] →
    ByteShown b s!"'\\{c}'"
  | digit {low : Char} : b.toNat < 0x10 → b.toNat ∉ [0x00, 0x09, 0x0a, 0x0d] →
    IsLowerDigit low b.toNat → ByteShown b s!"'\\u\x7b{low}\x7d'"
  | digits {high low : Char} :
    0x10 ≤ b.toNat ∧ b.toNat < 0x20 ∨ 0x7f ≤ b.toNat ∧ b.toNat ≤ 0xa0 ∨ b.toNat = 0xad →
    IsLowerDigit high (b.toNat / 16) → IsLowerDigit low (b.toNat % 16) →
    ByteShown b s!"'\\u\x7b{high}{low}\x7d'"

theorem isPrinted_byte : ∀ n < 256,
    (isPrinted (Char.ofNat n) ↔ 0x20 ≤ n ∧ n ≤ 0x7e ∨ 0xa1 ≤ n ∧ n ≠ 0xad) := by
  decide +kernel

theorem mem_escapes_byte : ∀ n < 256,
    (Char.ofNat n ∈ escapes.map Prod.fst ↔ n ∈ [0x00, 0x09, 0x0a, 0x0d, 0x27, 0x5c]) := by
  decide +kernel

section ByteShown

variable {b : UInt8} {text : String}

theorem toList_shown_of_coded (range : b.toNat < 0x20 ∨ 0x7f ≤ b.toNat)
    (unprinted : b.toNat ≤ 0xa0 ∨ b.toNat = 0xad) (other : b.toNat ∉ [0x00, 0x09, 0x0a, 0x0d]) :
    (shown (Char.ofNat b.toNat)).toList =
      '\'' :: '\\' :: 'u' :: '\x7b' :: (Nat.toDigits 16 b.toNat ++ ['\x7d', '\'']) := by
  simp only [List.mem_cons, List.not_mem_nil, or_false, not_or] at other
  rw [toList_shown_of_unprinted, Hex.toNat_char_of_byte]
  · rw [mem_escapes_byte b.toNat b.toNat_lt]
    simp only [List.mem_cons, List.not_mem_nil, or_false]
    omega
  · rw [isPrinted_byte b.toNat b.toNat_lt]
    omega

theorem ByteShown.eq (h : ByteShown b text) : text = shown (Char.ofNat b.toNat) := by
  apply String.toList_inj.mp
  cases h with
  | itself range others =>
    simp only [List.mem_cons, List.not_mem_nil, or_false, not_or] at others
    rw [toList_shown_of_printed]
    · show ("'" ++ String.singleton _ ++ "'").toList = _
      simp
    · rw [mem_escapes_byte b.toNat b.toNat_lt]
      simp only [List.mem_cons, List.not_mem_nil, or_false]
      omega
    · rw [isPrinted_byte b.toNat b.toNat_lt]
      omega
  | letter mem =>
    simp only [List.mem_cons, List.not_mem_nil, Prod.mk.injEq, or_false] at mem
    rcases mem with ⟨byte, rfl⟩ | ⟨byte, rfl⟩ | ⟨byte, rfl⟩ | ⟨byte, rfl⟩ | ⟨byte, rfl⟩ |
      ⟨byte, rfl⟩ <;> rw [byte] <;> decide
  | digit low others isLow =>
    rw [toList_shown_of_coded (by omega) (by omega) others, Nat.toDigits_of_lt_base low,
      isLow.eq.2]
    show ("'\\u\x7b" ++ String.singleton _ ++ "\x7d'").toList = _
    simp
  | digits range isHigh isLow =>
    have others : b.toNat ∉ [0x00, 0x09, 0x0a, 0x0d] := by
      simp only [List.mem_cons, List.not_mem_nil, or_false]
      omega
    obtain ⟨low, rfl⟩ := isHigh.eq
    rw [toList_shown_of_coded (by omega) (by omega) others,
      Nat.toDigits_of_base_le (by decide) (by omega), Nat.toDigits_of_lt_base low,
      isLow.eq.2]
    show ("'\\u\x7b" ++ String.singleton _ ++ String.singleton _ ++ "\x7d'").toList = _
    simp

theorem exists_byteShown (b : UInt8) : ∃ text, ByteShown b text := by
  have small : b.toNat < 256 := b.toNat_lt
  by_cases letter : ∃ c, (b.toNat, c) ∈
      [(0x00, '0'), (0x09, 't'), (0x0a, 'n'), (0x0d, 'r'), (0x27, '\''), (0x5c, '\\')]
  · obtain ⟨c, mem⟩ := letter
    exact ⟨_, .letter mem⟩
  simp only [List.mem_cons, List.not_mem_nil, Prod.mk.injEq, or_false, exists_or,
    exists_eq_right, not_or] at letter
  by_cases low : b.toNat < 0x10
  · exact ⟨_, .digit low (by simp; omega) (isLowerDigit_digitChar _ low)⟩
  by_cases coded : 0x10 ≤ b.toNat ∧ b.toNat < 0x20 ∨ 0x7f ≤ b.toNat ∧ b.toNat ≤ 0xa0 ∨
      b.toNat = 0xad
  · exact ⟨_, .digits coded (isLowerDigit_digitChar _ (by omega))
      (isLowerDigit_digitChar _ (by omega))⟩
  · exact ⟨_, .itself (by omega) (by simp; omega)⟩

theorem byteShown_iff : ByteShown b text ↔ text = shown (Char.ofNat b.toNat) := by
  refine ⟨ByteShown.eq, ?_⟩
  rintro rfl
  obtain ⟨text, h⟩ := exists_byteShown b
  exact h.eq ▸ h

/-- A byte is told by the text that shows it. -/
theorem ByteShown.unique {b' : UInt8} (h : ByteShown b text) (h' : ByteShown b' text) : b' = b := by
  have chars := shown_inj.mp (h'.eq.symm.trans h.eq)
  have codes := congrArg Char.toNat chars
  rw [Hex.toNat_char_of_byte, Hex.toNat_char_of_byte] at codes
  exact UInt8.toNat_inj.mp codes

end ByteShown

end SimpleLedger.Text
