import SimpleLedger.Proofs.Script.Shortest
import SimpleLedger.Proofs.Message.Grammar

namespace SimpleLedger

theorem Message.layout_fields (message : Message) : message.Layout message.fields :=
  layout_iff.mpr ⟨_, .inl rfl, rfl⟩

theorem Message.fields_toScript {message : Message}
    (bound : ∀ field ∈ message.fields, field.length < 0x100000000) :
    Script.fields message.toScript = .ok message.fields := by
  have bounds : ∀ field ∈ lokadId :: message.fields, field.length < 0x100000000 :=
    List.forall_mem_cons.mpr ⟨by decide, bound⟩
  exact Script.fields_eq_ok_iff_pushes.mpr ⟨_, Script.pushes_flatMap_push bounds, rfl⟩

theorem Message.length_lt_of_layout {message : Message} {fields : List Bytes}
    (layout : message.Layout fields) (bound : ∀ field ∈ fields, field.length < 0x100000000) :
    ∀ field ∈ message.fields, field.length < 0x100000000 := by
  obtain ⟨_, _, rfl⟩ := layout_iff.mp layout
  exact List.forall_mem_cons.mpr ⟨by simp, (List.forall_mem_cons.mp bound).2⟩

/-- The spelling of the token type in two bytes is never the shortest. -/
theorem Message.toScript_length_le {message : Message} {fields : List Bytes} {body : Bytes}
    (layout : message.Layout fields) (pushes : Script.Pushes (lokadId :: fields) body) :
    message.toScript.length ≤ (returnOpcode :: body).length ∧
      ((returnOpcode :: body).length ≤ message.toScript.length →
        fields = message.fields ∧ returnOpcode :: body = message.toScript) := by
  obtain ⟨code, spelled, rfl⟩ := layout_iff.mp layout
  have least := pushes.flatMap_push_length_le
  rcases spelled with rfl | rfl
  · refine ⟨Nat.succ_le_succ least, fun short => ⟨rfl, ?_⟩⟩
    rw [pushes.eq_flatMap_push (Nat.le_of_succ_le_succ short)]
    rfl
  · have longer : message.toScript.length + 1 ≤ (returnOpcode :: body).length := by
      simp only [toScript, Message.fields, List.flatMap_cons, List.length_cons, List.length_append]
        at least ⊢
      simp [Script.push, Script.pushHeader] at least ⊢
      omega
    exact ⟨by omega, fun short => by omega⟩

theorem Message.eq_toScript_iff {script : Bytes} {message : Message}
    (bound : ∀ field ∈ message.fields, field.length < 0x100000000) :
    script = message.toScript ↔ ∃ fields spellings, message.Layout fields ∧
      fields.head? = some [message.tokenType.code] ∧
      List.Forall₂ Script.Shortest (lokadId :: fields) spellings ∧
      script = returnOpcode :: spellings.flatten := by
  simp only [Script.forall₂_shortest_iff]
  constructor
  · intro h
    subst h
    have bounds : ∀ field ∈ lokadId :: message.fields, field.length < 0x100000000 :=
      List.forall_mem_cons.mpr ⟨by decide, bound⟩
    exact ⟨_, _, message.layout_fields, rfl, ⟨bounds, rfl⟩, by rw [toScript, List.flatMap_def]⟩
  · intro h
    obtain ⟨fields, _, layout, narrow, ⟨_, rfl⟩, rfl⟩ := h
    obtain ⟨code, _, rfl⟩ := layout_iff.mp layout
    cases Option.some.inj narrow
    rw [toScript, List.flatMap_def]
    rfl

/-- The script that is written for a decoded message decodes to it, and is the only shortest one
among those that do: it has the shortest pushes and a token type of one byte. -/
theorem Message.toScript_shortest {script : Bytes} {message : Message}
    (h : ofScript script = .ok message) :
    ofScript message.toScript = .ok message ∧ message.toScript.length ≤ script.length ∧
      (message.toScript.length = script.length → script = message.toScript) ∧
      (script = message.toScript ↔ ∃ fields spellings, message.Layout fields ∧
        fields.head? = some [message.tokenType.code] ∧
        List.Forall₂ Script.Shortest (lokadId :: fields) spellings ∧
        script = returnOpcode :: spellings.flatten) := by
  obtain ⟨valid, fields, layout, found⟩ := ofScript_eq_ok_iff.mp h
  obtain ⟨body, pushes, rfl⟩ := Script.fields_eq_ok_iff_pushes.mp found
  have bound := length_lt_of_layout layout (List.forall_mem_cons.mp pushes.length_lt).2
  obtain ⟨least, only⟩ := toScript_length_le layout pushes
  refine ⟨?_, least, fun same => (only (Nat.le_of_eq same.symm)).2, eq_toScript_iff bound⟩
  exact ofScript_eq_ok_iff.mpr ⟨valid, _, message.layout_fields, fields_toScript bound⟩

/-- A genesis that spells its token type in two bytes and pushes its quantity by a counted push. -/
theorem Message.toScript_shortest_of_wide_genesis :
    ofScript ([0x6a, 0x04, 0x53, 0x4c, 0x50, 0x00, 0x02, 0x00, 0x01, 0x07, 0x47, 0x45, 0x4e, 0x45,
        0x53, 0x49, 0x53, 0x01, 0x41, 0x4c, 0x00, 0x4c, 0x00, 0x4c, 0x00, 0x01, 0x08, 0x4c, 0x00,
        0x4d, 0x08, 0x00, 0, 0, 0, 0, 0, 0, 0, 0x64]) =
      .ok ⟨.fungible, .genesis ⟨[0x41], [], [], [], 8, none, 100⟩⟩ ∧
    ofScript (toScript ⟨.fungible, .genesis ⟨[0x41], [], [], [], 8, none, 100⟩⟩) =
      .ok ⟨.fungible, .genesis ⟨[0x41], [], [], [], 8, none, 100⟩⟩ := by
  refine ⟨?decodes, (toScript_shortest ?decodes).1⟩
  have direct {field : Bytes} (h : 1 ≤ field.length ∧ field.length ≤ 75) :
      Script.Spelling field (UInt8.ofNat field.length :: field) :=
    ⟨_, .direct h.1 h.2, rfl⟩
  have empty : Script.Spelling [] [0x4c, 0x00] := ⟨_, .one (by decide), rfl⟩
  have valid : Valid ⟨.fungible, .genesis ⟨[0x41], [], [], [], 8, none, 100⟩⟩ :=
    ⟨.inl rfl, by decide, by simp, by simp⟩
  refine ofScript_eq_ok_iff.mpr ⟨valid, _, .genesis (.inr rfl),
    Script.fields_eq_ok_iff_pushes.mpr ⟨_, .cons (direct ?_) <| .cons (direct ?_) <|
      .cons (direct ?_) <| .cons (direct ?_) <| .cons empty <| .cons empty <| .cons empty <|
      .cons (direct ?_) <| .cons empty <| .cons ⟨_, .two ?_, rfl⟩ .nil, rfl⟩⟩
  all_goals decide

end SimpleLedger
