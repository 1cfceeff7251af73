import SimpleLedger.Proofs.Message.Grammar

namespace SimpleLedger

open FieldReader

theorem Rule.tokenType_widen (code : UInt8) : tokenType [0x00, code] = tokenType [code] := by
  have same : Bytes.bigEndian [0x00, code] = Bytes.bigEndian [code] := by
    simp [Bytes.bigEndian, Bytes.littleEndian]
  have wide : ([0x00, code] : Bytes).length = 1 ∨ ([0x00, code] : Bytes).length = 2 := .inr rfl
  have narrow : ([code] : Bytes).length = 1 ∨ ([code] : Bytes).length = 2 := .inl rfl
  rw [tokenType, tokenType, if_pos wide, if_pos narrow, same]

theorem Message.read_widen (code : UInt8) (others : List Bytes) :
    read.on ([0x00, code] :: others) = read.on ([code] :: others) := by
  have first : (nextBy "token_type" Rule.tokenType).on ([0x00, code] :: others) =
      (nextBy "token_type" Rule.tokenType).on ([code] :: others) := by
    rw [on_nextBy_cons, on_nextBy_cons, Rule.tokenType_widen]
  rw [read, on_bind, on_bind, first]

/-- Pushes after the opcode and the marker are read by the fields alone. -/
theorem Message.ofScript_of_pushes {fields : List Bytes} {body : Bytes}
    (h : Script.Pushes (lokadId :: fields) body) :
    ofScript (returnOpcode :: body) = (read.on fields).1 := by
  have found : Script.fields (returnOpcode :: body) = .ok fields :=
    Script.fields_eq_ok_iff_pushes.mpr ⟨body, h, rfl⟩
  rw [ofScript, found]
  rfl

/-- Two scripts that push the same fields are read the same, whichever opcodes either of them uses,
and also when one of them spells a token type of one byte in two. -/
theorem Message.ofScript_respelled {fields : List Bytes} {body body' : Bytes}
    (h : Script.Pushes ([0x53, 0x4c, 0x50, 0x00] :: fields) body)
    (h' : Script.Pushes ([0x53, 0x4c, 0x50, 0x00] :: fields) body') :
    ofScript (0x6a :: body) = ofScript (0x6a :: body') ∧
      ∀ code others wide, fields = [code] :: others →
        Script.Pushes ([0x53, 0x4c, 0x50, 0x00] :: [0x00, code] :: others) wide →
        ofScript (0x6a :: body) = ofScript (0x6a :: wide) := by
  have read : ofScript (0x6a :: body) = (read.on fields).1 := ofScript_of_pushes h
  refine ⟨read.trans (ofScript_of_pushes h').symm, ?_⟩
  intro code others wide first pushes
  have widened : ofScript (0x6a :: wide) = (Message.read.on ([0x00, code] :: others)).1 :=
    ofScript_of_pushes pushes
  rw [read, widened, first, read_widen]

/-- An unknown tag is refused alike with direct pushes, with counted ones, and with a token type in
two bytes. -/
theorem Message.ofScript_respelled_of_unknown_tag :
    ofScript [0x6a, 0x04, 0x53, 0x4c, 0x50, 0x00, 0x01, 0x41, 0x04, 0x42, 0x55, 0x52, 0x4e] =
        ofScript [0x6a, 0x4c, 0x04, 0x53, 0x4c, 0x50, 0x00, 0x4e, 0x01, 0x00, 0x00, 0x00, 0x41,
          0x4d, 0x04, 0x00, 0x42, 0x55, 0x52, 0x4e] ∧
      ofScript [0x6a, 0x04, 0x53, 0x4c, 0x50, 0x00, 0x01, 0x41, 0x04, 0x42, 0x55, 0x52, 0x4e] =
        ofScript [0x6a, 0x04, 0x53, 0x4c, 0x50, 0x00, 0x02, 0x00, 0x41, 0x04, 0x42, 0x55, 0x52,
          0x4e] := by
  have direct {field : Bytes} (h : 1 ≤ field.length ∧ field.length ≤ 75) :
      Script.Spelling field (UInt8.ofNat field.length :: field) :=
    ⟨_, .direct h.1 h.2, rfl⟩
  have plain : Script.Pushes [[0x53, 0x4c, 0x50, 0x00], [0x41], [0x42, 0x55, 0x52, 0x4e]]
      [0x04, 0x53, 0x4c, 0x50, 0x00, 0x01, 0x41, 0x04, 0x42, 0x55, 0x52, 0x4e] :=
    .cons (direct (by decide)) (.cons (direct (by decide)) (.cons (direct (by decide)) .nil))
  have counted : Script.Pushes [[0x53, 0x4c, 0x50, 0x00], [0x41], [0x42, 0x55, 0x52, 0x4e]]
      [0x4c, 0x04, 0x53, 0x4c, 0x50, 0x00, 0x4e, 0x01, 0x00, 0x00, 0x00, 0x41,
        0x4d, 0x04, 0x00, 0x42, 0x55, 0x52, 0x4e] :=
    .cons ⟨_, .one (by decide), rfl⟩
      (.cons ⟨_, .four (by decide), rfl⟩ (.cons ⟨_, .two (by decide), rfl⟩ .nil))
  have wide : Script.Pushes [[0x53, 0x4c, 0x50, 0x00], [0x00, 0x41], [0x42, 0x55, 0x52, 0x4e]]
      [0x04, 0x53, 0x4c, 0x50, 0x00, 0x02, 0x00, 0x41, 0x04, 0x42, 0x55, 0x52, 0x4e] :=
    .cons (direct (by decide)) (.cons (direct (by decide)) (.cons (direct (by decide)) .nil))
  have same := ofScript_respelled plain counted
  exact ⟨same.1, same.2 _ _ _ rfl wide⟩

end SimpleLedger
