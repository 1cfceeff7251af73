import SimpleLedger.Proofs.Message.Canonical
import SimpleLedger.Proofs.Message.Demand

namespace SimpleLedger

open FieldReader

theorem Rule.documentHash_eq_insist (hash : Bytes) :
    Rule.documentHash hash =
      insist [⟨hash.length = 0 ∨ hash.length = 32, .invalidHashLength hash.length⟩] hash := by
  rw [insist_cons, insist_nil, Rule.documentHash]
  simp only [decide_eq_true_eq]

theorem Rule.decimals_eq_insist (n : UInt8) :
    Rule.decimals [n] =
      insist [⟨n ≤ 9, .invalidDecimals s!"{n.toNat} is greater than 9"⟩] n := by
  rw [insist_cons, insist_nil, Rule.decimals]
  simp only [decide_eq_true_eq]

theorem Rule.mintBaton_eq_insist (baton : Option UInt8) :
    Rule.mintBaton (batonField baton) = insist (batonDemands baton) baton := by
  cases baton with
  | none => rfl
  | some vout =>
    rw [batonDemands, Option.toList_some, List.map_singleton, insist_cons, insist_nil]
    simp only [batonField, Rule.mintBaton, decide_eq_true_eq]

theorem Rule.childGenesis_eq_insist (g : Genesis) :
    Rule.childGenesis g =
      insist [⟨g.decimals = 0, .invalidNft1Child "decimals must be 0"⟩,
        ⟨g.mintBatonVout = none, .invalidNft1Child "must not create a mint baton"⟩,
        ⟨g.initialQuantity = 1, .invalidNft1Child "quantity must be 1"⟩] g := by
  simp only [insist_cons, insist_nil, Rule.childGenesis, decide_eq_true_eq]
  by_cases decimals : g.decimals = 0
  · by_cases one : g.initialQuantity = 1
    · cases baton : g.mintBatonVout <;> simp [decimals, one]
    · cases baton : g.mintBatonVout <;> simp [decimals, one]
  · simp [decimals]

theorem Rule.outputQuantities_eq_insist (s : Send) :
    Rule.outputQuantities s.outputQuantities = insist s.demands s.outputQuantities := by
  simp only [Send.demands, insist_cons, insist_nil, Rule.outputQuantities, decide_eq_true_eq]
  by_cases empty : s.outputQuantities = []
  · simp [empty]
  · by_cases few : s.outputQuantities.length ≤ 19
    · simp [empty, few, Nat.not_lt.mpr few]
    · simp [empty, few, Nat.not_le.mp few]

section Reading

variable {α β : Type} {name : String} {field : Bytes} {left : List Bytes}

theorem on_next_bind {next' : Bytes → FieldReader β} :
    (next name >>= next').on (field :: left) = (next' field).on left := by
  rw [on_bind, on_next_cons]

theorem on_nextBy_bind_fst {rule : Bytes → Except DecodeError α} {next' : α → FieldReader β} :
    ((nextBy name rule >>= next').on (field :: left)).1 =
      rule field >>= fun a => ((next' a).on left).1 := by
  rw [on_bind, on_nextBy_cons]
  cases rule field <;> rfl

theorem on_nextBy_bind {rule : Bytes → Except DecodeError α} {next' : α → FieldReader β} {a : α}
    (h : rule field = .ok a) :
    (nextBy name rule >>= next').on (field :: left) = (next' a).on left := by
  rw [on_bind, on_nextBy_cons, h]

theorem on_bind_error {reader : FieldReader α} {next' : α → FieldReader β} {e : DecodeError}
    (h : (reader.on left).1 = .error e) : ((reader >>= next').on left).1 = .error e := by
  rw [on_bind]
  cases read : reader.on left with
  | mk outcome between =>
    rw [read] at h
    cases h
    rfl

theorem on_rest_bind {next' : List Bytes → FieldReader β} :
    (rest >>= next').on left = (next' left).on [] := by
  rw [on_bind, on_rest]

theorem on_check_bind_fst {outcome : Except DecodeError α} {next' : α → FieldReader β} :
    ((check outcome >>= next').on left).1 = outcome >>= fun a => ((next' a).on left).1 := by
  rw [on_bind, on_check]
  cases outcome <;> rfl

theorem insist_bind {demands others : List Demand} {a : α} {b : β}
    {next' : α → Except DecodeError β} (h : next' a = insist others b) :
    insist demands a >>= next' = insist (demands ++ others) b := by
  rw [insist_append demands others a b, insist]
  cases firstBroken demands with
  | none => exact h
  | some e => rfl

theorem insist_bind_ok {demands : List Demand} {a : α} {b : β} {next' : α → Except DecodeError β}
    (h : next' a = .ok b) : insist demands a >>= next' = insist demands b := by
  rw [insist_bind (h.trans (insist_nil b).symm), List.append_nil]

theorem map_insist {f : α → β} {demands : List Demand} {a : α} :
    (insist demands a).map f = insist demands (f a) := by
  unfold insist
  cases firstBroken demands <;> rfl

end Reading

theorem Genesis.read_fields (tokenType : TokenType) (g : Genesis) :
    ((Genesis.read tokenType).on (Action.genesis g).fields).1 =
      insist (g.demands tokenType) g := by
  simp only [Genesis.read, Action.fields, on_next_bind, on_nextBy_bind_fst,
    Rule.documentHash_eq_insist, Rule.decimals_eq_insist, Rule.mintBaton_eq_insist,
    Rule.quantity_quantityField]
  refine insist_bind (insist_bind (insist_bind ?_))
  split
  next isChild => exact Rule.childGenesis_eq_insist g
  next notChild => rfl

theorem Rule.tokenId_bytes (id : TokenId) : Rule.tokenId id.bytes = .ok id :=
  Rule.tokenId_eq_ok_iff.mpr rfl

theorem Mint.read_fields (tokenType : TokenType) (m : Mint) :
    ((Mint.read tokenType).on (Action.mint m).fields).1 = insist (m.demands tokenType) m := by
  rw [demands, insist_cons, Mint.read]
  by_cases isChild : tokenType = .nft1Child
  · rw [if_pos isChild, on_check_bind_fst]
    simp [isChild, bind, Except.bind]
  · simp only [isChild, if_false, Action.fields, on_nextBy_bind_fst, Rule.tokenId_bytes,
      Rule.mintBaton_eq_insist, Rule.quantity_quantityField]
    rw [if_pos (by simpa using isChild)]
    exact insist_bind_ok rfl

theorem mapM_quantity_fields (name : String) (quantities : List UInt64) :
    (quantities.map quantityField).mapM (Rule.quantity name) = .ok quantities :=
  mapM_quantity_eq_ok_iff.mpr rfl

theorem Send.read_fields (s : Send) :
    (Send.read.on (Action.send s).fields).1 = insist s.demands s := by
  simp only [Send.read, Action.fields, on_nextBy_bind_fst, on_rest_bind, on_check_bind_fst,
    Rule.tokenId_bytes, mapM_quantity_fields]
  change Rule.outputQuantities s.outputQuantities >>=
    (fun accepted => Except.ok { s with outputQuantities := accepted }) = _
  rw [Rule.outputQuantities_eq_insist]
  exact insist_bind_ok rfl

theorem on_map_fst {α β : Type} {f : α → β} {reader : FieldReader α} {fields : List Bytes}
    {demands : List Demand} {a : α} (h : (reader.on fields).1 = insist demands a) :
    ((f <$> reader).on fields).1 = insist demands (f a) := by
  rw [on_map, h, map_insist]

theorem Action.read_fields (message : Message) :
    ((Action.read message.tokenType message.transactionType).on message.action.fields).1 =
      insist message.demands message.action := by
  obtain ⟨tokenType, g | m | s⟩ := message
  · exact on_map_fst (Genesis.read_fields tokenType g)
  · exact on_map_fst (Mint.read_fields tokenType m)
  · exact on_map_fst (Send.read_fields s)

theorem Message.read_fields (message : Message) :
    (Message.read.on message.fields).1 = insist message.demands message := by
  cases broken : firstBroken message.demands with
  | none =>
    have valid := firstBroken_demands_eq_none_iff.mp broken
    have read : Message.read.on message.fields = (.ok message, []) :=
      Message.read_eq_ok_iff.mpr ⟨valid, rfl, _, .inl rfl, rfl⟩
    rw [read, insist, broken]
  | some e =>
    have code : Rule.tokenType [message.tokenType.code] = .ok message.tokenType :=
      Rule.tokenType_eq_ok_iff.mpr (.inl rfl)
    have tag : Rule.transactionType message.transactionType.tag = .ok message.transactionType :=
      Rule.transactionType_eq_ok_iff.mpr rfl
    have action := Action.read_fields message
    rw [insist, broken] at action ⊢
    rw [Message.read, Message.fields, on_nextBy_bind code, on_nextBy_bind tag]
    exact on_bind_error action

/-- Every byte field is short enough for the length of its push to be written in full. -/
def Message.Writable (message : Message) : Prop :=
  match message.action with
  | .genesis g => g.ticker.length < 0x100000000 ∧ g.name.length < 0x100000000 ∧
      g.documentUri.length < 0x100000000 ∧ g.documentHash.length < 0x100000000
  | .mint m => m.tokenId.bytes.length < 0x100000000
  | .send s => s.tokenId.bytes.length < 0x100000000

theorem Message.Writable.length_lt {message : Message} (h : message.Writable) :
    ∀ field ∈ message.fields, field.length < 0x100000000 := by
  have baton (b : Option UInt8) : (batonField b).length < 0x100000000 :=
    Nat.lt_of_le_of_lt (length_batonField_le b) (by decide)
  have tag : message.transactionType.tag.length < 0x100000000 := by
    cases message.transactionType <;> decide
  have action : ∀ field ∈ message.action.fields, field.length < 0x100000000 := by
    obtain ⟨tokenType, g | m | s⟩ := message
    · obtain ⟨ticker, name, uri, hash⟩ := h
      simp only [Action.fields, List.forall_mem_cons, List.length_singleton, length_quantityField]
      exact ⟨ticker, name, uri, hash, by decide, baton _, by decide, List.forall_mem_nil _⟩
    · simp only [Action.fields, List.forall_mem_cons, length_quantityField]
      exact ⟨h, baton _, by decide, List.forall_mem_nil _⟩
    · simp only [Action.fields, List.forall_mem_cons, List.forall_mem_map, length_quantityField]
      exact ⟨h, fun _ _ => by decide⟩
  exact List.forall_mem_cons.mpr ⟨by simp, List.forall_mem_cons.mpr ⟨tag, action⟩⟩

/-- The kinds of error that no rule of a message has. -/
def structuralKinds : List String :=
  ["NotSlp", "MalformedScript", "MissingField", "TrailingData", "InvalidTokenId",
    "InvalidQuantityEncoding", "UnsupportedTokenType", "UnknownTransactionType",
    "UnsupportedTransactionType"]

theorem batonDemands_not_structural {baton : Option UInt8} :
    ∀ demand ∈ batonDemands baton, demand.error.kind ∉ structuralKinds := by
  cases baton <;> simp [batonDemands, DecodeError.kind, structuralKinds]

theorem Message.demands_not_structural (message : Message) :
    ∀ demand ∈ message.demands, demand.error.kind ∉ structuralKinds := by
  obtain ⟨tokenType, g | m | s⟩ := message
  · simp only [demands, Genesis.demands, List.forall_mem_append]
    refine ⟨⟨?_, batonDemands_not_structural⟩, ?_⟩
    · simp [DecodeError.kind, structuralKinds]
    · split <;> simp [DecodeError.kind, structuralKinds]
  · refine List.forall_mem_cons.mpr ⟨?_, batonDemands_not_structural⟩
    simp [DecodeError.kind, structuralKinds]
  · simp [demands, Send.demands, DecodeError.kind, structuralKinds]

/-- A message that is read from the script written for it is the message itself if it keeps every
rule, and otherwise the error of the first rule that it breaks. -/
theorem Message.ofScript_toScript_first_broken {message : Message} (h : message.Writable) :
    ofScript message.toScript =
        (match firstBroken message.demands with
        | none => .ok message
        | some e => .error e) ∧
      (firstBroken message.demands = none ↔ message.Valid) ∧
      ∀ e, ofScript message.toScript = .error e → e.kind ∉ structuralKinds := by
  have outcome : ofScript message.toScript = insist message.demands message := by
    rw [ofScript, fields_toScript h.length_lt]
    exact message.read_fields
  refine ⟨outcome, firstBroken_demands_eq_none_iff, fun e refused => ?_⟩
  rw [outcome, insist] at refused
  cases broken : firstBroken message.demands with
  | none =>
    rw [broken] at refused
    cases refused
  | some first =>
    rw [broken] at refused
    cases refused
    obtain ⟨demand, found, rfl⟩ := Option.map_eq_some_iff.mp broken
    exact message.demands_not_structural demand (List.mem_of_find?_eq_some found)

/-- A genesis that breaks every rule is refused for its hash. -/
theorem Message.ofScript_toScript_first_broken_of_faulty_genesis :
    Writable ⟨.nft1Child, .genesis ⟨[0x41], [], [], [0x01, 0x02], 12, some 1, 7⟩⟩ ∧
    ofScript (toScript ⟨.nft1Child, .genesis ⟨[0x41], [], [], [0x01, 0x02], 12, some 1, 7⟩⟩) =
      .error (.invalidHashLength 2) := by
  refine ⟨?writable, (ofScript_toScript_first_broken ?writable).1⟩
  simp [Writable]

end SimpleLedger
