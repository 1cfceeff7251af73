import SimpleLedger.Bytes.Hex
import SimpleLedger.Bytes.Percent
import SimpleLedger.Proofs.Text.Utf8

namespace SimpleLedger.Hex

/-- The character is the digit for the number, in lower or in upper case. -/
def Denotes (c : Char) (n : Nat) : Prop :=
  c = digit 'a' n ∨ c = digit 'A' n

/-- The spellings of bytes, two digits to a byte and the high one first, each of either case. -/
inductive Spelling : Bytes → List Char → Prop
  | nil : Spelling [] []
  | cons {b : UInt8} {high low : Char} {bytes : Bytes} {text : List Char} :
    Denotes high (b.toNat / 16) → Denotes low (b.toNat % 16) → Spelling bytes text →
    Spelling (b :: bytes) (high :: low :: text)

/-- The characters that are digits. -/
def IsDigit (c : Char) : Prop :=
  ∃ n < 16, Denotes c n

/-- A digit is one byte, no white space, and no mark of a URI or of an option. -/
theorem IsDigit.plain {c : Char} (h : IsDigit c) :
    c.toNat < 128 ∧ Text.isBlank c = false ∧ c ∉ ['/', '?', '#', '%', '-'] := by
  have lower : ∀ n < 16, (digit 'a' n).toNat < 128 ∧ Text.isBlank (digit 'a' n) = false ∧
      digit 'a' n ∉ ['/', '?', '#', '%', '-'] := by decide
  have upper : ∀ n < 16, (digit 'A' n).toNat < 128 ∧ Text.isBlank (digit 'A' n) = false ∧
      digit 'A' n ∉ ['/', '?', '#', '%', '-'] := by decide
  obtain ⟨n, bound, rfl | rfl⟩ := h
  · exact lower n bound
  · exact upper n bound

theorem Denotes.value?_eq {c : Char} {n : Nat} (h : Denotes c n) (bound : n < 16) :
    value? (UInt8.ofNat c.toNat) = some n := by
  have lower : ∀ n < 16, value? (UInt8.ofNat (digit 'a' n).toNat) = some n := by decide
  have upper : ∀ n < 16, value? (UInt8.ofNat (digit 'A' n).toNat) = some n := by decide
  rcases h with rfl | rfl
  · exact lower n bound
  · exact upper n bound

namespace Spelling

variable {bytes : Bytes} {text : List Char}

theorem isDigit (h : Spelling bytes text) : ∀ c ∈ text, IsDigit c := by
  induction h with
  | nil => exact List.forall_mem_nil _
  | @cons b high low bytes text first second _ ih =>
    have bound := b.toNat_lt
    exact List.forall_mem_cons.mpr ⟨⟨_, by omega, first⟩,
      List.forall_mem_cons.mpr ⟨⟨_, by omega, second⟩, ih⟩⟩

theorem isAscii (h : Spelling bytes text) : Text.IsAscii text :=
  fun c mem => (h.isDigit c mem).plain.1

theorem length_utf8 (h : Spelling bytes text) : (Text.utf8 text).length = 2 * bytes.length := by
  rw [Text.utf8_of_isAscii h.isAscii, List.length_map]
  induction h with
  | nil => rfl
  | cons _ _ _ ih =>
    simp only [List.length_cons, ih]
    omega

theorem decodePairs_utf8 (h : Spelling bytes text) (index : Nat) (taken : Bytes) :
    decodePairs index taken (Text.utf8 text) = .ok (taken.reverse ++ bytes) := by
  rw [Text.utf8_of_isAscii h.isAscii]
  induction h generalizing index taken with
  | nil => rw [List.map_nil, decodePairs, List.append_nil]
  | @cons b high low bytes text first second _ ih =>
    have bound := b.toNat_lt
    have byte : UInt8.ofNat (16 * (b.toNat / 16) + b.toNat % 16) = b := by
      rw [Nat.div_add_mod, UInt8.ofNat_toNat]
    rw [List.map_cons, List.map_cons, decodePairs, first.value?_eq (by omega),
      second.value?_eq (by omega)]
    dsimp only
    rw [byte, ih, List.reverse_cons, List.append_assoc, List.singleton_append]

theorem decode_utf8 (h : Spelling bytes text) : decode (Text.utf8 text) = .ok bytes := by
  have even : ¬ (Text.utf8 text).length % 2 = 1 := by
    rw [h.length_utf8]
    omega
  rw [decode, if_neg even, h.decodePairs_utf8 0 []]
  rfl

end Spelling

end SimpleLedger.Hex
