import SimpleLedger.Proofs.Message.Error
import SimpleLedger.Proofs.Message.Reason

namespace SimpleLedger

theorem DecodeError.Plain.message_printable {e : DecodeError} (h : e.Plain) :
    Text.IsPrintable e.message := by
  cases e with
  | malformedScript | notSlp | unsupportedTokenType | unknownTransactionType
  | unsupportedTransactionType | missingField | invalidDecimals | invalidMintBaton
  | invalidNft1Child => exact Text.isPrintable_append.mpr ⟨by decide, h⟩
  | trailingData transactionType count =>
    have last :
        Text.IsPrintable (" unexpected element(s) after " ++ transactionType ++ " fields") :=
      Text.isPrintable_append.mpr ⟨Text.isPrintable_append.mpr ⟨by decide, h⟩, by decide⟩
    rw [message_trailingData]
    exact Text.isPrintable_append.mpr ⟨by decide, Text.isPrintable_before count last⟩
  | invalidHashLength length => exact Text.isPrintable_around length (by decide) (by decide)
  | invalidTokenId length => exact Text.isPrintable_around length (by decide) (by decide)
  | tooFewOutputs => exact (by decide : Text.IsPrintable tooFewOutputs.message)
  | tooManyOutputs count => exact Text.isPrintable_around count (by decide) (by decide)
  | invalidQuantityEncoding field length =>
    have named : Text.IsPrintable (field ++ ": " ++ toString length) :=
      Text.isPrintable_append.mpr
        ⟨Text.isPrintable_append.mpr ⟨h, by decide⟩, Text.isPrintable_toString length⟩
    rw [message_invalidQuantityEncoding]
    exact Text.isPrintable_append.mpr
      ⟨Text.isPrintable_append.mpr ⟨by decide, named⟩, by decide⟩

/-- Every message of an error begins with a fixed text. -/
theorem DecodeError.message_ne_empty (e : DecodeError) : e.message ≠ "" := by
  have starts {first rest : String} (h : first ≠ "") : first ++ rest ≠ "" :=
    fun empty => h (String.append_eq_empty_iff.mp empty).1
  cases e with
  | malformedScript | notSlp | unsupportedTokenType | unknownTransactionType
  | unsupportedTransactionType | missingField | invalidDecimals | invalidMintBaton
  | invalidNft1Child => exact starts (by decide)
  | trailingData =>
    rw [message_trailingData]
    exact starts (by decide)
  | invalidHashLength => exact starts (starts (by decide))
  | invalidTokenId => exact starts (starts (by decide))
  | tooFewOutputs => exact (by decide : tooFewOutputs.message ≠ "")
  | tooManyOutputs => exact starts (starts (by decide))
  | invalidQuantityEncoding =>
    rw [message_invalidQuantityEncoding]
    exact starts (starts (by decide))

theorem Script.Fault.detail_printable (fault : Script.Fault) : Text.IsPrintable fault.detail := by
  cases fault with
  | truncatedLength width offset =>
    exact Text.isPrintable_append.mpr
      ⟨Text.isPrintable_around width (by decide) (by decide), Text.isPrintable_toString offset⟩
  | overrun length offset remaining =>
    have pushed : Text.IsPrintable ("push of " ++ toString length ++ " bytes at offset ") :=
      Text.isPrintable_around length (by decide) (by decide)
    have placed : Text.IsPrintable ("push of " ++ toString length ++ " bytes at offset " ++
        toString offset ++ " exceeds remaining ") :=
      Text.isPrintable_around offset pushed (by decide)
    exact Text.isPrintable_around remaining placed (by decide)

theorem Script.Token.field_plain (token : Script.Token) : Blames DecodeError.Plain token.field := by
  unfold Script.Token.field
  split
  next => exact blames_ok
  next code _ =>
    have opcode : Text.IsPrintable ("opcode " ++ Rule.hexCode code.toNat) :=
      Text.isPrintable_append.mpr ⟨by decide, Rule.hexCode_printable _⟩
    have place : Text.IsPrintable ("opcode " ++ Rule.hexCode code.toNat ++ " at offset ") :=
      Text.isPrintable_append.mpr ⟨opcode, by decide⟩
    exact blames_error (Text.isPrintable_around token.start place (by decide))
  next fault _ => exact blames_error fault.detail_printable

theorem Script.fields_plain (script : Bytes) : Blames DecodeError.Plain (Script.fields script) := by
  have noReturn : Script.fields.noReturn.Plain :=
    (by decide : Text.IsPrintable "script does not begin with OP_RETURN")
  have noMarker : Script.fields.noMarker.Plain :=
    (by decide : Text.IsPrintable "missing SLP LOKAD id")
  unfold Script.fields
  split
  next =>
    split
    next =>
      split
      next =>
        split
        next => exact blames_mapM Script.Token.field_plain
        next => exact blames_error noMarker
      next => exact blames_error noMarker
    next => exact blames_error noReturn
  next => exact blames_error noReturn

theorem Message.ofScript_plain (script : Bytes) : Blames DecodeError.Plain (ofScript script) :=
  (Script.fields_plain script).bind fun fields e refused => (read_blames fields e refused).plain

end SimpleLedger
