import SimpleLedger.Verdict
import SimpleLedger.Proofs.Bytes.Hex
import SimpleLedger.Proofs.Json.Printing
import SimpleLedger.Proofs.Message.Error
import SimpleLedger.Proofs.Message.Rule

namespace SimpleLedger

namespace Verdict

theorem nat_inj {n m : Nat} : Json.nat n = Json.nat m ↔ n = m := by
  rw [Json.nat, Json.nat, Json.int.injEq, Int.ofNat_inj]

theorem batonJson_inj {baton baton' : Option UInt8} :
    batonJson baton = batonJson baton' ↔ baton = baton' := by
  cases baton with
  | none => cases baton' <;> simp [batonJson, Json.nat]
  | some vout =>
    cases baton' with
    | none => simp [batonJson, Json.nat]
    | some vout' => rw [batonJson, batonJson, nat_inj, UInt8.toNat_inj, Option.some.injEq]

theorem quantityJson_inj {quantity quantity' : UInt64} :
    quantityJson quantity = quantityJson quantity' ↔ quantity = quantity' := by
  rw [quantityJson, quantityJson, Json.str.injEq, Text.toString_inj, UInt64.toNat_inj]

theorem map_quantityJson_inj {quantities quantities' : List UInt64} :
    quantities.map quantityJson = quantities'.map quantityJson ↔ quantities = quantities' :=
  List.map_inj_right fun _ _ => quantityJson_inj.mp

section Exact

open Json (Exact)

theorem exact_batonJson (baton : Option UInt8) : Exact (batonJson baton) := by
  cases baton with
  | none => exact .null
  | some vout => exact .nat (Nat.lt_trans vout.toNat_lt (by decide))

theorem exact_actionMembers (action : Action) :
    ∀ member ∈ actionMembers action, Exact member.2 := by
  have byte (n : UInt8) : Exact (.nat n.toNat) := .nat (Nat.lt_trans n.toNat_lt (by decide))
  cases action with
  | genesis g =>
    simp only [actionMembers, List.forall_mem_cons]
    exact ⟨.str _, .str _, .str _, .str _, byte g.decimals, exact_batonJson _, .str _,
      List.forall_mem_nil _⟩
  | mint m =>
    simp only [actionMembers, List.forall_mem_cons]
    exact ⟨.str _, exact_batonJson _, .bool _, .str _, List.forall_mem_nil _⟩
  | send s =>
    have quantities : ∀ item ∈ s.outputQuantities.map quantityJson, Exact item :=
      List.forall_mem_map.mpr fun _ _ => .str _
    simp only [actionMembers, List.forall_mem_cons]
    exact ⟨.str _, .arr quantities, List.forall_mem_nil _⟩

/-- No number in the JSON of a verdict is beyond a word. -/
theorem exact_toJson (verdict : Verdict) : Exact verdict.toJson := by
  cases verdict with
  | accepted message =>
    have code := Exact.nat (Nat.lt_trans message.tokenType.code.toNat_lt (by decide))
    have data : Exact (messageJson message) :=
      .obj (List.forall_mem_cons.mpr ⟨code, List.forall_mem_cons.mpr ⟨.str _,
        exact_actionMembers message.action⟩⟩)
    exact .obj (List.forall_mem_cons.mpr ⟨.bool _, List.forall_mem_singleton.mpr data⟩)
  | refused kind text =>
    refine .obj ?_
    simp only [List.forall_mem_cons]
    exact ⟨.bool _, .str _, .str _, List.forall_mem_nil _⟩

end Exact

section Sorted

variable (tokenType : TokenType)

theorem sorted_batonJson (baton : Option UInt8) : (batonJson baton).sorted = batonJson baton := by
  cases baton <;> rfl

theorem sortedItems_quantityJson (quantities : List UInt64) :
    Json.sortedItems (quantities.map quantityJson) = quantities.map quantityJson := by
  induction quantities with
  | nil => rfl
  | cons quantity quantities ih =>
    rw [List.map_cons, Json.sortedItems, ih]
    rfl

theorem sorted_genesisJson (g : Genesis) : (messageJson ⟨tokenType, .genesis g⟩).sorted =
    .obj [("batonVout", batonJson g.mintBatonVout), ("decimals", .nat g.decimals.toNat),
      ("documentSha256", .str (Hex.upper g.documentHash)),
      ("documentUri", .str (Hex.upper g.documentUri)),
      ("genesisOrMintQuantity", quantityJson g.initialQuantity), ("name", .str (Hex.upper g.name)),
      ("symbol", .str (Hex.upper g.ticker)), ("tokenType", .nat tokenType.code.toNat),
      ("transactionType", .str "GENESIS")] := by
  rw [← sorted_batonJson g.mintBatonVout]
  rfl

theorem sorted_mintJson (m : Mint) : (messageJson ⟨tokenType, .mint m⟩).sorted =
    .obj [("batonVout", batonJson m.mintBatonVout),
      ("containsBaton", .bool m.mintBatonVout.isSome),
      ("genesisOrMintQuantity", quantityJson m.additionalQuantity),
      ("tokenIdHex", .str (Hex.lower m.tokenId.bytes)), ("tokenType", .nat tokenType.code.toNat),
      ("transactionType", .str "MINT")] := by
  rw [← sorted_batonJson m.mintBatonVout]
  rfl

theorem sorted_sendJson (s : Send) : (messageJson ⟨tokenType, .send s⟩).sorted =
    .obj [("sendOutputs", .arr (s.outputQuantities.map quantityJson)),
      ("tokenIdHex", .str (Hex.lower s.tokenId.bytes)), ("tokenType", .nat tokenType.code.toNat),
      ("transactionType", .str "SEND")] := by
  rw [← sortedItems_quantityJson s.outputQuantities]
  rfl

theorem sorted_accepted (message : Message) : (toJson (accepted message)).sorted =
    .obj [("data", (messageJson message).sorted), ("success", .bool true)] :=
  rfl

theorem sorted_refused (kind text : String) : (toJson (refused kind text)).sorted =
    .obj [("error", .str text), ("kind", .str kind), ("success", .bool false)] :=
  rfl

end Sorted

/-- No field of a message is lost in its JSON, in whatever order the members stand. -/
theorem sorted_messageJson_inj {message message' : Message} :
    (messageJson message).sorted = (messageJson message').sorted ↔ message = message' := by
  refine ⟨fun h => ?_, fun h => h ▸ rfl⟩
  obtain ⟨tokenType, g | m | s⟩ := message <;> obtain ⟨tokenType', g' | m' | s'⟩ := message'
  case genesis.genesis =>
    simp only [sorted_genesisJson, Json.obj.injEq, List.cons.injEq, Prod.mk.injEq, Json.str.injEq,
      true_and, and_true, nat_inj, batonJson_inj, quantityJson_inj, Hex.upper_inj, UInt8.toNat_inj,
      TokenType.code_inj] at h
    obtain ⟨baton, decimals, hash, uri, quantity, name, ticker, tokenType⟩ := h
    cases g
    cases g'
    simp_all
  case mint.mint =>
    simp only [sorted_mintJson, Json.obj.injEq, List.cons.injEq, Prod.mk.injEq, Json.str.injEq,
      true_and, and_true, nat_inj, batonJson_inj, quantityJson_inj, Hex.lower_inj, UInt8.toNat_inj,
      TokenType.code_inj, TokenId.bytes_inj] at h
    obtain ⟨baton, _, quantity, tokenId, tokenType⟩ := h
    cases m
    cases m'
    simp_all
  case send.send =>
    simp only [sorted_sendJson, Json.obj.injEq, List.cons.injEq, Prod.mk.injEq, Json.str.injEq,
      Json.arr.injEq, true_and, and_true, nat_inj, map_quantityJson_inj, Hex.lower_inj,
      UInt8.toNat_inj, TokenType.code_inj, TokenId.bytes_inj] at h
    obtain ⟨quantities, tokenId, tokenType⟩ := h
    cases s
    cases s'
    simp_all
  all_goals simp [sorted_genesisJson, sorted_mintJson, sorted_sendJson] at h

theorem sorted_toJson_inj {verdict verdict' : Verdict} :
    verdict.toJson.sorted = verdict'.toJson.sorted ↔ verdict = verdict' := by
  cases verdict <;> cases verdict' <;>
    simp [sorted_accepted, sorted_refused, sorted_messageJson_inj, and_comm]

theorem ofResult_inj {result result' : Except DecodeError Message} :
    ofResult result = ofResult result' ↔ result = result' := by
  refine ⟨fun h => ?_, fun h => h ▸ rfl⟩
  cases result with
  | ok message =>
    cases result' with
    | ok message' => rw [accepted.inj h]
    | error e' => cases h
  | error e =>
    cases result' with
    | ok message' => cases h
    | error e' =>
      obtain ⟨kind, text⟩ := refused.inj h
      rw [DecodeError.eq_of_kind_of_message kind text]

/-- The JSON of two verdicts is the same, with its members in any order, only for the same message
or the same error; so is the JSON for two scripts only if reading them gives the same. -/
theorem toJson_ofResult_injective :
    (∀ result result' : Except DecodeError Message,
      ((ofResult result).toJson = (ofResult result').toJson ↔ result = result') ∧
      ((ofResult result).toJson.sorted = (ofResult result').toJson.sorted ↔ result = result')) ∧
    ∀ script script' : Bytes, (ofScript script).toJson.sorted = (ofScript script').toJson.sorted ↔
      Message.ofScript script = Message.ofScript script' := by
  have results (result result' : Except DecodeError Message) :
      (ofResult result).toJson.sorted = (ofResult result').toJson.sorted ↔ result = result' :=
    sorted_toJson_inj.trans ofResult_inj
  refine ⟨fun result result' => ⟨⟨fun h => ?_, fun h => h ▸ rfl⟩, results result result'⟩,
    fun script script' => results _ _⟩
  exact (results result result').mp (congrArg Json.sorted h)

end Verdict

end SimpleLedger
