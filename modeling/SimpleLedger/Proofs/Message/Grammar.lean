import SimpleLedger.Proofs.Message.Marked
import SimpleLedger.Proofs.Message.Validity

namespace SimpleLedger

/-- The fields that can spell a message. Only the token type has two forms. -/
inductive Message.Layout : Message → List Bytes → Prop
  | genesis {tokenType : TokenType} {code : Bytes} {g : Genesis} :
    code = [tokenType.code] ∨ code = [0x00, tokenType.code] →
    Layout ⟨tokenType, .genesis g⟩
      [code, [0x47, 0x45, 0x4e, 0x45, 0x53, 0x49, 0x53], g.ticker, g.name, g.documentUri,
        g.documentHash, [g.decimals], g.mintBatonVout.toList,
        Bytes.ofBigEndian 8 g.initialQuantity.toNat]
  | mint {tokenType : TokenType} {code : Bytes} {m : Mint} :
    code = [tokenType.code] ∨ code = [0x00, tokenType.code] →
    Layout ⟨tokenType, .mint m⟩
      [code, [0x4d, 0x49, 0x4e, 0x54], m.tokenId.bytes, m.mintBatonVout.toList,
        Bytes.ofBigEndian 8 m.additionalQuantity.toNat]
  | send {tokenType : TokenType} {code : Bytes} {s : Send} :
    code = [tokenType.code] ∨ code = [0x00, tokenType.code] →
    Layout ⟨tokenType, .send s⟩
      (code :: [0x53, 0x45, 0x4e, 0x44] :: s.tokenId.bytes ::
        s.outputQuantities.map fun quantity => Bytes.ofBigEndian 8 quantity.toNat)

theorem batonField_eq (baton : Option UInt8) : batonField baton = baton.toList := by
  cases baton <;> rfl

theorem Message.layout_iff {message : Message} {fields : List Bytes} :
    message.Layout fields ↔ ∃ code, (code = [message.tokenType.code] ∨
      code = [0, message.tokenType.code]) ∧
      fields = code :: message.transactionType.tag :: message.action.fields := by
  constructor
  · intro h
    rcases h with @⟨_, code, g, spelled⟩ | @⟨_, code, m, spelled⟩ | @⟨_, code, s, spelled⟩
    · exact ⟨code, spelled, by rw [Action.fields, batonField_eq]; rfl⟩
    · exact ⟨code, spelled, by rw [Action.fields, batonField_eq]; rfl⟩
    · exact ⟨code, spelled, rfl⟩
  · intro h
    obtain ⟨code, spelled, rfl⟩ := h
    obtain ⟨tokenType, g | m | s⟩ := message
    · rw [Action.fields, batonField_eq]
      exact .genesis spelled
    · rw [Action.fields, batonField_eq]
      exact .mint spelled
    · exact .send spelled

theorem Message.ofScript_eq_ok_iff {script : Bytes} {message : Message} :
    ofScript script = .ok message ↔
      message.Valid ∧ ∃ fields, message.Layout fields ∧ Script.fields script = .ok fields := by
  rw [ofScript, bind_eq_ok_iff]
  constructor
  · intro h
    obtain ⟨fields, found, accepted⟩ := h
    have read : Message.read.on fields = (.ok message, (Message.read.on fields).2) :=
      Prod.ext accepted rfl
    obtain ⟨valid, _, layout⟩ := Message.read_eq_ok_iff.mp read
    exact ⟨valid, fields, layout_iff.mpr layout, found⟩
  · intro h
    obtain ⟨valid, fields, layout, found⟩ := h
    have read : Message.read.on fields = (.ok message, []) :=
      Message.read_eq_ok_iff.mpr ⟨valid, rfl, layout_iff.mp layout⟩
    exact ⟨fields, found, congrArg Prod.fst read⟩

theorem Script.fields_eq_ok_iff_pushes {script : Bytes} {datas : List Bytes} :
    Script.fields script = .ok datas ↔
      ∃ body, Script.Pushes (lokadId :: datas) body ∧ script = returnOpcode :: body := by
  rw [Script.fields_eq_ok_iff]
  constructor
  · intro h
    obtain ⟨_, body, ⟨marker, spelled, _, rfl⟩, pushes⟩ := h
    exact ⟨_, .cons spelled pushes, rfl⟩
  · intro h
    obtain ⟨_, pushes, rfl⟩ := h
    cases pushes with
    | cons spelled pushes => exact ⟨_, _, ⟨_, spelled, rfl, rfl⟩, pushes⟩

/-- The scripts that hold a message are those that push, after the opcode, the marker and the
fields of the message in any spelling, and the message keeps every rule. -/
theorem Message.ofScript_accepts_grammar (script : Bytes) (message : Message) :
    ofScript script = .ok message ↔ message.Valid ∧ ∃ fields body, message.Layout fields ∧
      Script.Pushes ([0x53, 0x4c, 0x50, 0x00] :: fields) body ∧ script = 0x6a :: body := by
  rw [ofScript_eq_ok_iff]
  simp only [Script.fields_eq_ok_iff_pushes]
  constructor
  · intro h
    obtain ⟨valid, fields, layout, body, pushes, eq⟩ := h
    exact ⟨valid, fields, body, layout, pushes, eq⟩
  · intro h
    obtain ⟨valid, fields, body, layout, pushes, eq⟩ := h
    exact ⟨valid, fields, layout, body, pushes, eq⟩

end SimpleLedger
