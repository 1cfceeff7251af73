import SimpleLedger.Proofs.Outcome
import SimpleLedger.Proofs.Message.Rule
import SimpleLedger.Message.Reader

namespace SimpleLedger

/-- The rules of a genesis. -/
structure Genesis.Valid (tokenType : TokenType) (genesis : Genesis) : Prop where
  hash : genesis.documentHash.length = 0 ∨ genesis.documentHash.length = 32
  decimals : genesis.decimals ≤ 9
  baton : ∀ vout ∈ genesis.mintBatonVout, 2 ≤ vout
  child : tokenType = .nft1Child →
    genesis.decimals = 0 ∧ genesis.mintBatonVout = none ∧ genesis.initialQuantity = 1

structure Mint.Valid (tokenType : TokenType) (mint : Mint) : Prop where
  child : tokenType ≠ .nft1Child
  baton : ∀ vout ∈ mint.mintBatonVout, 2 ≤ vout

structure Send.Valid (send : Send) : Prop where
  nonempty : 1 ≤ send.outputQuantities.length
  few : send.outputQuantities.length ≤ 19

def Action.Valid (tokenType : TokenType) : Action → Prop
  | .genesis g => g.Valid tokenType
  | .mint m => m.Valid tokenType
  | .send s => s.Valid

/-- The rules of a message. -/
def Message.Valid (message : Message) : Prop :=
  message.action.Valid message.tokenType

open FieldReader

theorem Rule.childGenesis_eq_ok_iff {genesis accepted : Genesis} :
    Rule.childGenesis genesis = .ok accepted ↔
      genesis = accepted ∧ genesis.decimals = 0 ∧ genesis.mintBatonVout = none ∧
        genesis.initialQuantity = 1 := by
  unfold Rule.childGenesis
  constructor
  · intro h
    split at h
    next => cases h
    next noDecimals =>
      split at h
      next => cases h
      next noBaton =>
        split at h
        next => cases h
        next one =>
          cases h
          have zero : genesis.decimals = 0 := Decidable.not_not.mp noDecimals
          have none : genesis.mintBatonVout = none := by simpa using noBaton
          exact ⟨rfl, zero, none, Decidable.not_not.mp one⟩
  · intro h
    obtain ⟨rfl, noDecimals, noBaton, one⟩ := h
    simp [noDecimals, noBaton, one]

theorem Genesis.read_eq_ok_iff {tokenType : TokenType} {genesis : Genesis}
    {fields left : List Bytes} :
    (Genesis.read tokenType).on fields = (.ok genesis, left) ↔
      genesis.Valid tokenType ∧ fields = (Action.genesis genesis).fields ++ left := by
  simp only [Genesis.read, on_bind_eq_ok_iff, on_next_eq_ok_iff, on_nextBy_eq_ok_iff,
    Rule.documentHash_eq_ok_iff, Rule.decimals_eq_ok_iff, Rule.mintBaton_eq_ok_iff,
    Rule.quantity_eq_ok_iff]
  constructor
  · intro h
    obtain ⟨ticker, _, rfl, name, _, rfl, uri, _, rfl, h⟩ := h
    obtain ⟨hash, _, ⟨_, ⟨rfl, hashed⟩, rfl⟩, decimals, _, ⟨_, ⟨rfl, few⟩, rfl⟩, h⟩ := h
    obtain ⟨baton, _, ⟨_, ⟨rfl, high⟩, rfl⟩, quantity, _, ⟨_, rfl, rfl⟩, child⟩ := h
    split at child
    next isChild =>
      rw [on_check, Prod.mk.injEq, Rule.childGenesis_eq_ok_iff] at child
      obtain ⟨⟨rfl, rest⟩, rfl⟩ := child
      exact ⟨⟨hashed, few, high, fun _ => rest⟩, rfl⟩
    next notChild =>
      cases child
      exact ⟨⟨hashed, few, high, fun isChild => absurd isChild notChild⟩, rfl⟩
  · intro h
    obtain ⟨valid, rfl⟩ := h
    refine ⟨_, _, rfl, _, _, rfl, _, _, rfl, ?_⟩
    refine ⟨_, _, ⟨_, ⟨rfl, valid.hash⟩, rfl⟩, _, _, ⟨_, ⟨rfl, valid.decimals⟩, rfl⟩, ?_⟩
    refine ⟨_, _, ⟨_, ⟨rfl, valid.baton⟩, rfl⟩, _, _, ⟨_, rfl, rfl⟩, ?_⟩
    split
    next isChild =>
      rw [on_check, Prod.mk.injEq, Rule.childGenesis_eq_ok_iff]
      exact ⟨⟨rfl, valid.child isChild⟩, rfl⟩
    next => rfl

theorem Mint.read_eq_ok_iff {tokenType : TokenType} {mint : Mint} {fields left : List Bytes} :
    (Mint.read tokenType).on fields = (.ok mint, left) ↔
      mint.Valid tokenType ∧ fields = (Action.mint mint).fields ++ left := by
  unfold Mint.read
  split
  next isChild =>
    constructor
    · intro h
      obtain ⟨_, _, refused, _⟩ := on_bind_eq_ok_iff.mp h
      cases refused
    · intro h
      exact absurd isChild h.1.child
  next notChild =>
    simp only [on_bind_eq_ok_iff, on_nextBy_eq_ok_iff, Rule.tokenId_eq_ok_iff,
      Rule.mintBaton_eq_ok_iff, Rule.quantity_eq_ok_iff, on_pure]
    constructor
    · intro h
      obtain ⟨tokenId, _, ⟨_, rfl, rfl⟩, baton, _, ⟨_, ⟨rfl, high⟩, rfl⟩, h⟩ := h
      obtain ⟨quantity, _, ⟨_, rfl, rfl⟩, made⟩ := h
      cases made
      exact ⟨⟨notChild, high⟩, rfl⟩
    · intro h
      obtain ⟨valid, rfl⟩ := h
      exact ⟨_, _, ⟨_, rfl, rfl⟩, _, _, ⟨_, ⟨rfl, valid.baton⟩, rfl⟩, _, _, ⟨_, rfl, rfl⟩, rfl⟩

theorem mapM_quantity_eq_ok_iff {name : String} {fields : List Bytes} {quantities : List UInt64} :
    fields.mapM (Rule.quantity name) = .ok quantities ↔ fields = quantities.map quantityField := by
  have pointwise : List.Forall₂ (fun field quantity => field = quantityField quantity) fields
      quantities ↔ List.Forall₂ (· = ·) fields (quantities.map quantityField) :=
    List.forall₂_map_right_iff.symm
  simp only [mapM_eq_ok_iff, Rule.quantity_eq_ok_iff, pointwise, List.forall₂_eq_eq_eq]

theorem Send.read_eq_ok_iff {send : Send} {fields left : List Bytes} :
    Send.read.on fields = (.ok send, left) ↔
      send.Valid ∧ fields = (Action.send send).fields ∧ left = [] := by
  simp only [Send.read, on_bind_eq_ok_iff, on_nextBy_eq_ok_iff, Rule.tokenId_eq_ok_iff, on_rest,
    on_check, on_pure, Prod.mk.injEq, mapM_quantity_eq_ok_iff, Rule.outputQuantities_eq_ok_iff]
  constructor
  · intro h
    obtain ⟨tokenId, _, ⟨_, rfl, rfl⟩, _, _, ⟨made, rfl⟩, h⟩ := h
    obtain ⟨quantities, _, ⟨rfl, rfl⟩, _, _, ⟨⟨rfl, nonempty, few⟩, rfl⟩, eq, rfl⟩ := h
    cases made
    cases eq
    exact ⟨⟨nonempty, few⟩, rfl, rfl⟩
  · intro h
    obtain ⟨valid, rfl, rfl⟩ := h
    exact ⟨_, _, ⟨_, rfl, rfl⟩, _, _, ⟨rfl, rfl⟩, _, _, ⟨rfl, rfl⟩, _, _,
      ⟨⟨rfl, valid.nonempty, valid.few⟩, rfl⟩, rfl, rfl⟩

theorem Action.read_eq_ok_iff {tokenType : TokenType} {transactionType : TransactionType}
    {action : Action} {fields : List Bytes} :
    (Action.read tokenType transactionType).on fields = (.ok action, []) ↔
      transactionType = action.transactionType ∧ action.Valid tokenType ∧
        fields = action.fields := by
  cases transactionType with
  | genesis =>
    simp only [Action.read, on_map_eq_ok_iff, Genesis.read_eq_ok_iff, List.append_nil]
    cases action <;> simp [Action.transactionType, Action.Valid]
  | mint =>
    simp only [Action.read, on_map_eq_ok_iff, Mint.read_eq_ok_iff, List.append_nil]
    cases action <;> simp [Action.transactionType, Action.Valid]
  | send =>
    simp only [Action.read, on_map_eq_ok_iff, Send.read_eq_ok_iff]
    cases action <;> simp [Action.transactionType, Action.Valid]
  | commit => cases action <;> simp [Action.read, Action.transactionType]

theorem Message.read_eq_ok_iff {message : Message} {fields left : List Bytes} :
    Message.read.on fields = (.ok message, left) ↔
      message.Valid ∧ left = [] ∧ ∃ code, (code = [message.tokenType.code] ∨
        code = [0, message.tokenType.code]) ∧
        fields = code :: message.transactionType.tag :: message.action.fields := by
  simp only [Message.read, on_bind_eq_ok_iff, on_nextBy_eq_ok_iff, Rule.tokenType_eq_ok_iff,
    Rule.transactionType_eq_ok_iff, on_finish_eq_ok_iff, on_pure]
  constructor
  · intro h
    obtain ⟨tokenType, _, ⟨code, spelled, rfl⟩, transactionType, _, ⟨_, rfl, rfl⟩, h⟩ := h
    obtain ⟨action, _, read, _, _, ⟨rfl, rfl⟩, made⟩ := h
    obtain ⟨rfl, valid, rfl⟩ := Action.read_eq_ok_iff.mp read
    cases made
    exact ⟨valid, rfl, code, spelled, rfl⟩
  · intro h
    obtain ⟨valid, rfl, code, spelled, rfl⟩ := h
    exact ⟨_, _, ⟨code, spelled, rfl⟩, _, _, ⟨_, rfl, rfl⟩, _, _,
      Action.read_eq_ok_iff.mpr ⟨rfl, valid, rfl⟩, (), _, ⟨rfl, rfl⟩, rfl⟩

end SimpleLedger
