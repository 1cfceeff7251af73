import SimpleLedger.Text.Blank

namespace SimpleLedger.Text

theorem utf8_append (text rest : List Char) : utf8 (text ++ rest) = utf8 text ++ utf8 rest :=
  List.flatMap_append

/-- The bytes of a text are read as that text. -/
theorem fromUTF8?_utf8 (text : List Char) :
    String.fromUTF8? ⟨(utf8 text).toArray⟩ = some (String.ofList text) := by
  have bytes : (⟨(utf8 text).toArray⟩ : ByteArray) = text.utf8Encode :=
    congrArg ByteArray.mk List.data_toByteArray.symm
  have valid : ByteArray.IsValidUTF8 ⟨(utf8 text).toArray⟩ := .intro text bytes
  have read : String.fromUTF8 ⟨(utf8 text).toArray⟩ valid = String.ofList text := by
    rw [← String.toByteArray_inj, String.toByteArray_ofList]
    exact bytes
  rw [String.fromUTF8?, dif_pos valid, read]

/-- Bytes that are those of no text are not read as one. -/
theorem fromUTF8?_eq_none {bytes : Bytes} (invalid : ∀ text, utf8 text ≠ bytes) :
    String.fromUTF8? ⟨bytes.toArray⟩ = none := by
  have broken : ¬ ByteArray.IsValidUTF8 ⟨bytes.toArray⟩ := by
    rintro ⟨text, same⟩
    apply invalid text
    have arrays : bytes.toArray = (utf8 text).toArray :=
      (congrArg ByteArray.data same).trans List.data_toByteArray
    exact (Array.toList_inj.mpr arrays).symm
  rw [String.fromUTF8?, dif_neg broken]

/-- Every character of the text takes one byte. -/
def IsAscii (text : List Char) : Prop :=
  ∀ c ∈ text, c.toNat < 128

theorem utf8EncodeChar_of_ascii {c : Char} (ascii : c.toNat < 128) :
    String.utf8EncodeChar c = [UInt8.ofNat c.toNat] := by
  have small : c.val.toNat ≤ 127 := Nat.le_of_lt_succ ascii
  simp only [String.utf8EncodeChar, small, if_true]
  rfl

/-- None of the bytes of another character could be that of an ASCII character. -/
theorem utf8EncodeChar_high {c : Char} (high : 128 ≤ c.toNat) :
    String.utf8EncodeChar c ≠ [] ∧ ∀ b ∈ String.utf8EncodeChar c, 128 ≤ b.toNat := by
  have large : ¬ c.val.toNat ≤ 127 := Nat.not_le.mpr high
  have byte {n : Nat} (low : 128 ≤ n) (bound : n < 256) : 128 ≤ (UInt8.ofNat n).toNat := by
    rwa [UInt8.toNat_ofNat_of_lt' bound]
  simp only [String.utf8EncodeChar, large, if_false]
  split
  · refine ⟨List.cons_ne_nil _ _, ?_⟩
    simp only [List.forall_mem_cons]
    exact ⟨byte (by omega) (by omega), byte (by omega) (by omega), List.forall_mem_nil _⟩
  · split
    · refine ⟨List.cons_ne_nil _ _, ?_⟩
      simp only [List.forall_mem_cons]
      exact ⟨byte (by omega) (by omega), byte (by omega) (by omega), byte (by omega) (by omega),
        List.forall_mem_nil _⟩
    · refine ⟨List.cons_ne_nil _ _, ?_⟩
      simp only [List.forall_mem_cons]
      exact ⟨byte (by omega) (by omega), byte (by omega) (by omega), byte (by omega) (by omega),
        byte (by omega) (by omega), List.forall_mem_nil _⟩

theorem utf8_of_isAscii {text : List Char} (h : IsAscii text) :
    utf8 text = text.map fun c => UInt8.ofNat c.toNat := by
  induction text with
  | nil => rfl
  | cons c text ih =>
    obtain ⟨first, rest⟩ := List.forall_mem_cons.mp h
    rw [utf8, List.flatMap_cons, utf8EncodeChar_of_ascii first, ← utf8, ih rest]
    rfl

theorem utf8_take_of_isAscii {text : List Char} (h : IsAscii text) (n : Nat) :
    utf8 (text.take n) = (utf8 text).take n := by
  rw [utf8_of_isAscii h, utf8_of_isAscii fun c hc => h c (List.mem_of_mem_take hc), List.map_take]

end SimpleLedger.Text
