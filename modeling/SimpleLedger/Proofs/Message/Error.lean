import SimpleLedger.Message.Error
import SimpleLedger.Proofs.Text.Numeral

namespace SimpleLedger.DecodeError

theorem message_trailingData (transactionType : String) (count : Nat) :
    (trailingData transactionType count).message =
      "Trailing data: " ++ (toString count ++
        (" unexpected element(s) after " ++ transactionType ++ " fields")) := by
  simp only [← String.append_assoc]
  rfl

theorem message_invalidQuantityEncoding (field : String) (length : Nat) :
    (invalidQuantityEncoding field length).message =
      "Invalid quantity encoding for " ++ (field ++ ": " ++ toString length) ++
        " bytes (must be 8)" := by
  simp only [← String.append_assoc]
  rfl

theorem message_trailingData_inj {transactionType transactionType' : String} {count count' : Nat} :
    (trailingData transactionType count).message =
        (trailingData transactionType' count').message ↔
      transactionType = transactionType' ∧ count = count' := by
  refine ⟨fun h => ?_, fun ⟨ht, hc⟩ => by rw [ht, hc]⟩
  rw [message_trailingData, message_trailingData, String.append_right_inj] at h
  obtain ⟨counts, rest⟩ := Text.toString_append_inj (by simp) (by simp) h
  rw [String.append_left_inj, String.append_right_inj] at rest
  exact ⟨rest, counts⟩

theorem message_invalidQuantityEncoding_inj {field field' : String} {length length' : Nat} :
    (invalidQuantityEncoding field length).message =
        (invalidQuantityEncoding field' length').message ↔ field = field' ∧ length = length' := by
  refine ⟨fun h => ?_, fun ⟨hf, hl⟩ => by rw [hf, hl]⟩
  rw [message_invalidQuantityEncoding, message_invalidQuantityEncoding, String.append_left_inj,
    String.append_right_inj] at h
  obtain ⟨fields, lengths⟩ := Text.append_toString_inj (by simp) (by simp) h
  rw [String.append_left_inj] at fields
  exact ⟨fields, lengths⟩

theorem eq_of_kind_of_message {e e' : DecodeError} (kind : e.kind = e'.kind)
    (text : e.message = e'.message) : e = e' := by
  cases e <;> cases e' <;> try (simp [DecodeError.kind] at kind; done)
  case malformedScript.malformedScript | notSlp.notSlp
      | unsupportedTokenType.unsupportedTokenType | unknownTransactionType.unknownTransactionType
      | unsupportedTransactionType.unsupportedTransactionType | missingField.missingField
      | invalidDecimals.invalidDecimals | invalidMintBaton.invalidMintBaton
      | invalidNft1Child.invalidNft1Child =>
    congr
    exact (String.append_right_inj _).mp text
  case trailingData.trailingData =>
    obtain ⟨rfl, rfl⟩ := message_trailingData_inj.mp text
    rfl
  case invalidHashLength.invalidHashLength | invalidTokenId.invalidTokenId
      | tooManyOutputs.tooManyOutputs =>
    congr
    exact Text.toString_inj.mp ((String.append_right_inj _).mp ((String.append_left_inj _).mp text))
  case tooFewOutputs.tooFewOutputs => rfl
  case invalidQuantityEncoding.invalidQuantityEncoding =>
    obtain ⟨rfl, rfl⟩ := message_invalidQuantityEncoding_inj.mp text
    rfl

end SimpleLedger.DecodeError
