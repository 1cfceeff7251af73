import SimpleLedger.Verdict
import SimpleLedger.Proofs.Bytes.HexFault
import SimpleLedger.Proofs.Text.Blank
import SimpleLedger.Proofs.Text.Shown

namespace SimpleLedger

namespace Verdict

theorem ofResult_ne_invalidHex (result : Except DecodeError Message) (text : String) :
    ofResult result ≠ refused "InvalidHex" text := by
  cases result with
  | ok message => exact Verdict.noConfusion
  | error e =>
    intro h
    have kind : e.kind = "InvalidHex" := (refused.inj h).1
    cases e <;> simp [DecodeError.kind] at kind

theorem ofHex_of_padded {script : Bytes} {hex : List Char} {text : String}
    (spelled : Hex.Spelling script hex) (padded : Text.Padded hex text.toList) :
    ofHex text = ofScript script := by
  have solid : ∀ c ∈ hex, Text.isBlank c = false := fun c mem => (spelled.isDigit c mem).plain.2.1
  rw [ofHex, padded.trim_eq (Text.bare_of_not_blank solid), spelled.decode_utf8]

theorem ofHex_of_odd {text : String} (odd : (Text.utf8 (Text.trim text.toList)).length % 2 = 1) :
    ofHex text = refused "InvalidHex" "Invalid hex: Odd number of digits" := by
  rw [ofHex, Hex.decode, if_pos odd]
  rfl

theorem ofHex_of_bad_digit {text : String} {b : UInt8} {index : Nat}
    (even : (Text.utf8 (Text.trim text.toList)).length % 2 = 0)
    (read : Hex.decodePairs 0 [] (Text.utf8 (Text.trim text.toList)) =
      .error (.badDigit b index)) :
    ofHex text = refused "InvalidHex"
      s!"Invalid hex: Invalid character {Text.shown (Char.ofNat b.toNat)} at position {index}" := by
  have joined (shown place : String) :
      "Invalid hex: " ++ ("Invalid character " ++ shown ++ " at position " ++ place) =
        "Invalid hex: Invalid character " ++ shown ++ " at position " ++ place := by
    rw [← String.toList_inj]
    simp only [String.toList_append]
    rfl
  rw [ofHex, Hex.decode, if_neg (by omega), read]
  exact congrArg (refused "InvalidHex") (joined _ _)

end Verdict

/-- Digits with white space around them are answered with the verdict on the script they spell; any
other text is refused for its odd length or else for its first byte that is no digit. -/
theorem Verdict.ofHex_exact (text : String) :
    (∀ script hex, Hex.Spelling script hex → Text.Padded hex text.toList →
      ofHex text = ofResult (Message.ofScript script)) ∧
    ((∀ script hex, Hex.Spelling script hex → ¬ Text.Padded hex text.toList) →
      (∀ result, ofHex text ≠ ofResult result) ∧
      ∃ core, Text.Padded core text.toList ∧ Text.Bare core ∧
        (((Text.utf8 core).length % 2 = 1 ∧
            ofHex text = refused "InvalidHex" "Invalid hex: Odd number of digits") ∨
          ((Text.utf8 core).length % 2 = 0 ∧ ∃ before b after shown,
            Text.utf8 core = before ++ b :: after ∧ (∀ d ∈ before, Hex.IsDigitByte d) ∧
            ¬ Hex.IsDigitByte b ∧ Text.ByteShown b shown ∧
            (∀ other, Text.ByteShown other shown → other = b) ∧
            ofHex text = refused "InvalidHex"
              s!"Invalid hex: Invalid character {shown} at position {before.length}"))) := by
  refine ⟨fun script hex spelled padded => ofHex_of_padded spelled padded, fun unspelled => ?_⟩
  let core := Text.trim text.toList
  have padded : Text.Padded core text.toList := Text.padded_trim text.toList
  rcases Nat.mod_two_eq_zero_or_one (Text.utf8 core).length with even | odd
  · rcases Hex.decodePairs_cases 0 [] (Text.utf8 core) even with all |
      ⟨before, b, after, bytes, digits, other, read⟩
    · have digits := Hex.isDigit_of_isDigitByte all
      have ascii : Text.IsAscii core := fun c mem => (digits c mem).plain.1
      rw [Text.utf8_of_isAscii ascii, List.length_map] at even
      obtain ⟨script, spelled⟩ := Hex.exists_spelling core even digits
      exact absurd padded (unspelled script core spelled)
    · rw [Nat.zero_add] at read
      have refusal := ofHex_of_bad_digit even read
      have isShown := Text.byteShown_iff.mpr (Eq.refl (Text.shown (Char.ofNat b.toNat)))
      refine ⟨fun result same => ?_, core, padded, Text.bare_trim _, Or.inr ⟨even, before, b, after,
        _, bytes, digits, other, isShown, fun _ => isShown.unique, refusal⟩⟩
      exact ofResult_ne_invalidHex result _ (same.symm.trans refusal)
  · have refusal := ofHex_of_odd odd
    refine ⟨fun result same => ?_, core, padded, Text.bare_trim _, Or.inl ⟨odd, refusal⟩⟩
    exact ofResult_ne_invalidHex result _ (same.symm.trans refusal)

/-- An ideographic space and a tab are no part of the spelling `6A`. An accented letter is two bytes,
of which the first is named. -/
theorem Verdict.ofHex_exact_of_wide_space :
    ofHex "\u30006A\t" = ofResult (Message.ofScript [0x6a]) ∧
      (∀ script hex, Hex.Spelling script hex → ¬ Text.Padded hex " é ".toList) ∧
      (∀ result, ofHex " é " ≠ ofResult result) ∧
      ofHex " é " = refused "InvalidHex" "Invalid hex: Invalid character 'Ã' at position 0" := by
  have spelled : Hex.Spelling [0x6a] ['6', 'A'] := .cons (.inl rfl) (.inr rfl) .nil
  have padded : Text.Padded ['6', 'A'] "\u30006A\t".toList :=
    ⟨['\u3000'], ['\t'], List.forall_mem_singleton.mpr rfl, List.forall_mem_singleton.mpr rfl, rfl⟩
  have unspelled : ∀ script hex, Hex.Spelling script hex → ¬ Text.Padded hex " é ".toList := by
    rintro script hex spelled ⟨before, after, blankBefore, blankAfter, whole⟩
    have mem : 'é' ∈ before ++ hex ++ after := whole ▸ (by decide)
    simp only [List.mem_append] at mem
    rcases mem with (early | digit) | late
    · exact absurd (blankBefore 'é' early) (by decide)
    · exact absurd (spelled.isDigit 'é' digit).plain.1 (by decide)
    · exact absurd (blankAfter 'é' late) (by decide)
  obtain ⟨other, core, trimmed, bare, fault⟩ := (ofHex_exact _).2 unspelled
  refine ⟨(ofHex_exact _).1 _ _ spelled padded, unspelled, other, ?_⟩
  have bytes : Text.utf8 core = [0xc3, 0xa9] := by
    rw [← trimmed.trim_eq bare]
    decide
  rcases fault with ⟨odd, _⟩ | ⟨_, before, b, after, shown, parts, digits, _, isShown, _, refusal⟩
  · rw [bytes] at odd
    cases odd
  · rw [bytes] at parts
    cases before with
    | nil =>
      obtain ⟨rfl, _⟩ := List.cons.inj parts
      have named : Text.ByteShown 0xc3 "'Ã'" := .itself (by decide) (by decide)
      rw [refusal, isShown.eq, ← named.eq]
      rfl
    | cons first before =>
      obtain ⟨rfl, _⟩ := List.cons.inj parts
      exact absurd (digits _ List.mem_cons_self).plain.1 (by decide)

end SimpleLedger
