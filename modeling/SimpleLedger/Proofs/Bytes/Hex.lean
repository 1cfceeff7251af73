import SimpleLedger.Bytes.Hex

namespace SimpleLedger.Hex

theorem digit_lower_injective : ∀ n < 16, ∀ m < 16, digit 'a' n = digit 'a' m → n = m := by
  decide

theorem digit_upper_injective : ∀ n < 16, ∀ m < 16, digit 'A' n = digit 'A' m → n = m := by
  decide

theorem digits_injective {ten : Char}
    (separate : ∀ n < 16, ∀ m < 16, digit ten n = digit ten m → n = m) {bytes others : Bytes}
    (h : digits ten bytes = digits ten others) : bytes = others := by
  induction bytes generalizing others with
  | nil =>
    cases others with
    | nil => rfl
    | cons c others => simp [digits] at h
  | cons b bytes ih =>
    cases others with
    | nil => simp [digits] at h
    | cons c others =>
      have hb := b.toNat_lt
      have hc := c.toNat_lt
      simp only [digits, List.flatMap_cons, List.cons_append, List.nil_append,
        List.cons.injEq] at h
      obtain ⟨high, low, rest⟩ := h
      have high' := separate _ (by omega) _ (by omega) high
      have low' := separate _ (by omega) _ (by omega) low
      have same : b = c := UInt8.toNat_inj.mp (by omega)
      rw [same, ih rest]

theorem lower_inj {bytes others : Bytes} : lower bytes = lower others ↔ bytes = others :=
  ⟨fun h => digits_injective digit_lower_injective (String.ofList_inj.mp h), fun h => h ▸ rfl⟩

theorem upper_inj {bytes others : Bytes} : upper bytes = upper others ↔ bytes = others :=
  ⟨fun h => digits_injective digit_upper_injective (String.ofList_inj.mp h), fun h => h ▸ rfl⟩

end SimpleLedger.Hex
