import SimpleLedger.Proofs.Text.Numeral

namespace SimpleLedger.Text

/-- Every character is visible ASCII or a space. -/
def IsPrintable (text : String) : Prop :=
  ∀ c ∈ text.toList, 0x20 ≤ c.toNat ∧ c.toNat ≤ 0x7e

instance (text : String) : Decidable (IsPrintable text) :=
  List.decidableBAll _ text.toList

theorem isPrintable_append {text rest : String} :
    IsPrintable (text ++ rest) ↔ IsPrintable text ∧ IsPrintable rest := by
  simp only [IsPrintable, String.toList_append, List.forall_mem_append]

/-- Below the surrogates every number is the code of a character. -/
theorem toNat_ofNat {code : Nat} (low : code < 0xd800) : (Char.ofNat code).toNat = code := by
  rw [Char.ofNat, dif_pos (.inl low)]
  rfl

theorem mem_toDigits {base n : Nat} {c : Char} (two : 1 < base) (mem : c ∈ Nat.toDigits base n) :
    ∃ d < base, c = d.digitChar := by
  induction n using Nat.strongRecOn with
  | ind n ih =>
    rw [Nat.toDigits_eq_if two] at mem
    split at mem
    next low => exact ⟨n, low, List.mem_singleton.mp mem⟩
    next high =>
      have smaller : n / base < n := Nat.div_lt_self (by omega) two
      rcases List.mem_append.mp mem with earlier | last
      · exact ih _ smaller earlier
      · exact ⟨n % base, Nat.mod_lt n (by omega), List.mem_singleton.mp last⟩

theorem digitChar_printable : ∀ d < 16, 0x20 ≤ d.digitChar.toNat ∧ d.digitChar.toNat ≤ 0x7e := by
  decide

theorem toDigits_printable {base n : Nat} (two : 1 < base) (small : base ≤ 16) :
    ∀ c ∈ Nat.toDigits base n, 0x20 ≤ c.toNat ∧ c.toNat ≤ 0x7e := by
  intro c mem
  obtain ⟨d, low, rfl⟩ := mem_toDigits two mem
  exact digitChar_printable d (by omega)

theorem isPrintable_toString (n : Nat) : IsPrintable (toString n) := by
  rw [IsPrintable, toList_toString]
  exact toDigits_printable (by decide) (by decide)

theorem isPrintable_before {after : String} (n : Nat) (last : IsPrintable after) :
    IsPrintable (toString n ++ after) :=
  isPrintable_append.mpr ⟨isPrintable_toString n, last⟩

theorem isPrintable_around {before after : String} (n : Nat) (first : IsPrintable before)
    (last : IsPrintable after) : IsPrintable (before ++ toString n ++ after) :=
  isPrintable_append.mpr ⟨isPrintable_append.mpr ⟨first, isPrintable_toString n⟩, last⟩

end SimpleLedger.Text
