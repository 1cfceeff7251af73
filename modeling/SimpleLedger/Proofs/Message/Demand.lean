import SimpleLedger.Proofs.Message.Validity

namespace SimpleLedger

/-- A rule as it applies to some message: whether it is kept, and the error of breaking it. -/
structure Demand where
  kept : Bool
  error : DecodeError

/-- The error of the first rule that is broken, if any is. -/
def firstBroken (demands : List Demand) : Option DecodeError :=
  (demands.find? fun demand => !demand.kept).map Demand.error

/-- The rules of a mint baton. Without one there is none. -/
def batonDemands (baton : Option UInt8) : List Demand :=
  baton.toList.map fun vout => ⟨2 ≤ vout, .invalidMintBaton s!"vout {vout.toNat} is below 2"⟩

/-- The rules of a genesis. Those that hold for a single non-fungible token only come last. -/
def Genesis.demands (tokenType : TokenType) (g : Genesis) : List Demand :=
  [⟨g.documentHash.length = 0 ∨ g.documentHash.length = 32,
      .invalidHashLength g.documentHash.length⟩,
    ⟨g.decimals ≤ 9, .invalidDecimals s!"{g.decimals.toNat} is greater than 9"⟩] ++
  batonDemands g.mintBatonVout ++
  if tokenType = .nft1Child then
    [⟨g.decimals = 0, .invalidNft1Child "decimals must be 0"⟩,
      ⟨g.mintBatonVout = none, .invalidNft1Child "must not create a mint baton"⟩,
      ⟨g.initialQuantity = 1, .invalidNft1Child "quantity must be 1"⟩]
  else []

def Mint.demands (tokenType : TokenType) (m : Mint) : List Demand :=
  ⟨tokenType ≠ .nft1Child, .invalidNft1Child "MINT is not permitted"⟩ ::
    batonDemands m.mintBatonVout

def Send.demands (s : Send) : List Demand :=
  [⟨s.outputQuantities ≠ [], .tooFewOutputs⟩,
    ⟨s.outputQuantities.length ≤ 19, .tooManyOutputs s.outputQuantities.length⟩]

/-- The rules of a message. -/
def Message.demands (message : Message) : List Demand :=
  match message.action with
  | .genesis g => g.demands message.tokenType
  | .mint m => m.demands message.tokenType
  | .send s => s.demands

/-- A value if every rule is kept, or else the error of the first one that is broken. -/
def insist {α : Type} (demands : List Demand) (a : α) : Except DecodeError α :=
  match firstBroken demands with
  | none => .ok a
  | some e => .error e

theorem firstBroken_eq_none_iff {demands : List Demand} :
    firstBroken demands = none ↔ ∀ demand ∈ demands, demand.kept = true := by
  simp [firstBroken]

section Insist

variable {α β : Type}

@[simp] theorem insist_nil (a : α) : insist [] a = .ok a :=
  rfl

theorem insist_cons (demand : Demand) (demands : List Demand) (a : α) :
    insist (demand :: demands) a =
      if demand.kept then insist demands a else .error demand.error := by
  cases h : demand.kept <;> simp [insist, firstBroken, h]

theorem insist_append (demands others : List Demand) (a : α) (b : β) :
    insist (demands ++ others) b = insist demands a >>= fun _ => insist others b := by
  induction demands with
  | nil => rfl
  | cons demand demands ih =>
    rw [List.cons_append, insist_cons, insist_cons, ih]
    split <;> rfl

end Insist

theorem batonDemands_kept_iff {baton : Option UInt8} :
    (∀ demand ∈ batonDemands baton, demand.kept = true) ↔ ∀ vout ∈ baton, 2 ≤ vout := by
  cases baton <;> simp [batonDemands]

theorem Genesis.demands_kept_iff {tokenType : TokenType} {g : Genesis} :
    (∀ demand ∈ g.demands tokenType, demand.kept = true) ↔ g.Valid tokenType := by
  simp only [demands, List.forall_mem_append, batonDemands_kept_iff]
  constructor
  · intro h
    obtain ⟨⟨first, baton⟩, child⟩ := h
    simp only [List.forall_mem_cons, decide_eq_true_eq] at first
    refine ⟨first.1, first.2.1, baton, fun isChild => ?_⟩
    simpa [isChild] using child
  · intro valid
    refine ⟨⟨by simpa [valid.decimals] using valid.hash, valid.baton⟩, ?_⟩
    split
    next isChild => simpa using valid.child isChild
    next => simp

theorem Mint.demands_kept_iff {tokenType : TokenType} {m : Mint} :
    (∀ demand ∈ m.demands tokenType, demand.kept = true) ↔ m.Valid tokenType := by
  simp only [demands, List.forall_mem_cons, batonDemands_kept_iff, decide_eq_true_eq]
  exact ⟨fun ⟨child, baton⟩ => ⟨child, baton⟩, fun valid => ⟨valid.child, valid.baton⟩⟩

theorem Send.demands_kept_iff {s : Send} :
    (∀ demand ∈ s.demands, demand.kept = true) ↔ s.Valid := by
  have positive : s.outputQuantities ≠ [] ↔ 1 ≤ s.outputQuantities.length :=
    List.length_pos_iff.symm
  simp only [demands, List.forall_mem_cons, decide_eq_true_eq, positive]
  exact ⟨fun ⟨nonempty, few, _⟩ => ⟨nonempty, few⟩,
    fun valid => ⟨valid.nonempty, valid.few, by simp⟩⟩

theorem Message.firstBroken_demands_eq_none_iff {message : Message} :
    firstBroken message.demands = none ↔ message.Valid := by
  rw [firstBroken_eq_none_iff]
  obtain ⟨tokenType, g | m | s⟩ := message
  · exact Genesis.demands_kept_iff
  · exact Mint.demands_kept_iff
  · exact Send.demands_kept_iff

end SimpleLedger
