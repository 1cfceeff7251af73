import SimpleLedger.Proofs.Message.Written

namespace SimpleLedger

theorem map_quantityField_inj {quantities quantities' : List UInt64} :
    quantities.map quantityField = quantities'.map quantityField ↔ quantities = quantities' :=
  List.map_inj_right fun _ _ => Rule.quantityField_inj.mp

/-- The fields of an action tell it from the others of its kind. -/
theorem Action.fields_inj {action action' : Action}
    (same : action.transactionType = action'.transactionType) :
    action.fields = action'.fields ↔ action = action' := by
  refine ⟨fun h => ?_, fun h => h ▸ rfl⟩
  obtain g | m | s := action <;> obtain g' | m' | s' := action' <;> cases same
  case genesis.genesis =>
    simp only [fields, List.cons.injEq, and_true, batonField_inj,
      Rule.quantityField_inj] at h
    obtain ⟨ticker, name, uri, hash, decimals, baton, quantity⟩ := h
    cases g
    cases g'
    simp_all
  case mint.mint =>
    simp only [fields, List.cons.injEq, and_true, TokenId.bytes_inj, batonField_inj,
      Rule.quantityField_inj] at h
    obtain ⟨tokenId, baton, quantity⟩ := h
    cases m
    cases m'
    simp_all
  case send.send =>
    simp only [fields, List.cons.injEq, TokenId.bytes_inj, map_quantityField_inj] at h
    obtain ⟨tokenId, quantities⟩ := h
    cases s
    cases s'
    simp_all

namespace Message

theorem fields_inj {message message' : Message} :
    message.fields = message'.fields ↔ message = message' := by
  refine ⟨fun h => ?_, fun h => h ▸ rfl⟩
  -- the tag settles the transaction type, and with it what the other fields stand for
  obtain ⟨code, tag, action⟩ : [message.tokenType.code] = [message'.tokenType.code] ∧
      message.transactionType.tag = message'.transactionType.tag ∧
      message.action.fields = message'.action.fields := by
    simpa [fields] using h
  have tokenType := TokenType.code_inj.mp (List.singleton_inj.mp code)
  have transactionType := TransactionType.tag_inj.mp tag
  have action := (Action.fields_inj transactionType).mp action
  cases message
  cases message'
  simp_all

/-- As the fields can be read back whatever their bytes, a script is written for one message at
most, though it may break every rule. -/
theorem toScript_inj {message message' : Message} (h : message.Writable)
    (h' : message'.Writable) : message.toScript = message'.toScript ↔ message = message' := by
  refine ⟨fun same => ?_, fun same => same ▸ rfl⟩
  have fields : Script.fields message.toScript = .ok message.fields := fields_toScript h.length_lt
  rw [same, fields_toScript h'.length_lt] at fields
  exact fields_inj.mp (Except.ok.inj fields).symm

/-- A ticker that goes on with how an empty name is spelled is not read as the shorter one with that
name. -/
theorem toScript_inj_of_ticker_with_push :
    let short : Message := ⟨.nft1Child, .genesis ⟨[0x41], [], [], [0x01, 0x02], 12, some 1, 7⟩⟩
    let long : Message :=
      ⟨.nft1Child, .genesis ⟨[0x41, 0x4c, 0x00], [], [], [0x01, 0x02], 12, some 1, 7⟩⟩
    short.Writable ∧ long.Writable ∧ short.toScript ≠ long.toScript := by
  intro short long
  have writable : short.Writable := by simp [Writable, short]
  have writable' : long.Writable := by simp [Writable, long]
  exact ⟨writable, writable', fun same =>
    absurd ((toScript_inj writable writable').mp same) (by decide)⟩

end Message

end SimpleLedger
