import SimpleLedger.Message.Rule
import SimpleLedger.Message.Writer
import SimpleLedger.Proofs.Text.Numeral

namespace SimpleLedger

@[simp] theorem length_quantityField (quantity : UInt64) : (quantityField quantity).length = 8 := by
  simp [quantityField]

theorem length_batonField_le (baton : Option UInt8) : (batonField baton).length ≤ 1 := by
  cases baton <;> simp [batonField]

theorem TokenType.code_inj {t t' : TokenType} : t.code = t'.code ↔ t = t' := by
  cases t <;> cases t' <;> simp [code]

theorem TokenId.bytes_inj {id id' : TokenId} : id.bytes = id'.bytes ↔ id = id' := by
  cases id
  cases id'
  simp

/-- The last digit of a code is never missing, and neither is one before it. -/
theorem Rule.hexCode_eq (code : Nat) : hexCode code =
    "0x" ++ String.ofList (Nat.toDigits 16 (code / 16) ++ [Nat.digitChar (code % 16)]) := by
  unfold hexCode
  split
  next small =>
    rw [Nat.toDigits_of_lt_base small, Nat.div_eq_of_lt small, Nat.mod_eq_of_lt small]
    rfl
  next large => rw [Nat.toDigits_of_base_le (by decide) (by omega)]

theorem Rule.hexCode_inj {code code' : Nat} : hexCode code = hexCode code' ↔ code = code' := by
  refine ⟨fun h => ?_, congrArg hexCode⟩
  rw [hexCode_eq, hexCode_eq, String.append_right_inj, String.ofList_inj] at h
  obtain ⟨front, last⟩ := List.append_inj' h rfl
  have quotient := (Text.toDigits_inj (by decide) (by decide)).mp front
  have remainder := (Text.digitChar_inj (Nat.mod_lt _ (by decide))
    (Nat.mod_lt _ (by decide))).mp (List.singleton_inj.mp last)
  omega

theorem Rule.hexCode_byte {code : UInt8} {high low : Char}
    (isHigh : Text.IsLowerDigit high (code.toNat / 16))
    (isLow : Text.IsLowerDigit low (code.toNat % 16)) :
    hexCode code.toNat = "0x" ++ String.ofList [high, low] := by
  obtain ⟨small, rfl⟩ := isHigh.eq
  obtain ⟨_, rfl⟩ := isLow.eq
  rw [hexCode_eq, Nat.toDigits_of_lt_base small, List.singleton_append]

theorem TransactionType.tag_inj {t t' : TransactionType} : t.tag = t'.tag ↔ t = t' := by
  cases t <;> cases t' <;> decide

theorem batonField_inj {baton baton' : Option UInt8} :
    batonField baton = batonField baton' ↔ baton = baton' := by
  cases baton <;> cases baton' <;> simp [batonField]

theorem TokenType.ofCode?_eq_some_iff {n : Nat} {t : TokenType} :
    TokenType.ofCode? n = some t ↔ n = t.code.toNat := by
  constructor
  · intro h
    have := List.find?_some h
    exact (by simpa using this : t.code.toNat = n).symm
  · intro h
    subst h
    cases t <;> rfl

theorem TransactionType.ofTag?_eq_some_iff {bytes : Bytes} {t : TransactionType} :
    TransactionType.ofTag? bytes = some t ↔ bytes = t.tag := by
  constructor
  · intro h
    have := List.find?_some h
    exact (by simpa using this : t.tag = bytes).symm
  · intro h
    subst h
    cases t <;> rfl

namespace Rule

theorem quantity_quantityField (name : String) (q : UInt64) :
    quantity name (quantityField q) = .ok q := by
  have bound : q.toNat < Bytes.span 8 := q.toNat_lt
  have value : Bytes.bigEndian (quantityField q) = q.toNat := by
    rw [quantityField, Bytes.bigEndian_ofBigEndian, Nat.mod_eq_of_lt bound]
  simp [quantity, value]

theorem quantityField_inj {q q' : UInt64} : quantityField q = quantityField q' ↔ q = q' := by
  refine ⟨fun h => ?_, fun h => h ▸ rfl⟩
  have read := quantity_quantityField "" q
  rw [h, quantity_quantityField] at read
  exact (Except.ok.inj read).symm

theorem quantity_eq_ok_iff {name : String} {bytes : Bytes} {q : UInt64} :
    quantity name bytes = .ok q ↔ bytes = quantityField q := by
  constructor
  · intro h
    unfold quantity at h
    split at h
    next length =>
      have bound := Bytes.bigEndian_lt bytes
      have digits := Bytes.ofBigEndian_bigEndian bytes
      rw [length] at bound digits
      have value : (UInt64.ofNat (Bytes.bigEndian bytes)).toNat = Bytes.bigEndian bytes :=
        UInt64.toNat_ofNat_of_lt' bound
      cases h
      rw [quantityField, value, digits]
    next => cases h
  · intro h
    subst h
    exact quantity_quantityField name q

theorem decimals_eq_ok_iff {bytes : Bytes} {n : UInt8} :
    decimals bytes = .ok n ↔ bytes = [n] ∧ n ≤ 9 := by
  constructor
  · intro h
    unfold decimals at h
    split at h
    next m =>
      split at h
      next low =>
        cases h
        exact ⟨rfl, low⟩
      next => cases h
    next => cases h
  · intro h
    obtain ⟨rfl, low⟩ := h
    simp [decimals, low]

theorem mintBaton_eq_ok_iff {bytes : Bytes} {baton : Option UInt8} :
    mintBaton bytes = .ok baton ↔ bytes = batonField baton ∧ ∀ vout ∈ baton, 2 ≤ vout := by
  constructor
  · intro h
    unfold mintBaton at h
    split at h
    next =>
      cases h
      simp [batonField]
    next vout =>
      split at h
      next high =>
        cases h
        simpa [batonField] using high
      next => cases h
    next => cases h
  · intro h
    obtain ⟨rfl, high⟩ := h
    cases baton with
    | none => rfl
    | some vout => simp [batonField, mintBaton, high vout rfl]

theorem tokenId_eq_ok_iff {bytes : Bytes} {id : TokenId} :
    tokenId bytes = .ok id ↔ bytes = id.bytes := by
  constructor
  · intro h
    unfold tokenId TokenId.ofBytes? at h
    split at h
    next found =>
      split at found
      next => cases found; cases h; rfl
      next => cases found
    next => cases h
  · intro h
    subst h
    simp [tokenId, TokenId.ofBytes?, id.length_eq]

theorem documentHash_eq_ok_iff {bytes hash : Bytes} :
    documentHash bytes = .ok hash ↔ bytes = hash ∧ (hash.length = 0 ∨ hash.length = 32) := by
  constructor
  · intro h
    unfold documentHash at h
    split at h
    next length =>
      cases h
      exact ⟨rfl, length⟩
    next => cases h
  · intro h
    obtain ⟨rfl, length⟩ := h
    exact if_pos length

theorem transactionType_eq_ok_iff {bytes : Bytes} {t : TransactionType} :
    transactionType bytes = .ok t ↔ bytes = t.tag := by
  rw [← TransactionType.ofTag?_eq_some_iff]
  unfold transactionType
  cases TransactionType.ofTag? bytes <;> simp

theorem tokenType_of_length {bytes : Bytes} (length : bytes.length = 1 ∨ bytes.length = 2)
    (t : TokenType) : tokenType bytes = .ok t ↔ Bytes.bigEndian bytes = t.code.toNat := by
  rw [← TokenType.ofCode?_eq_some_iff, tokenType, if_pos length]
  cases found : TokenType.ofCode? (Bytes.bigEndian bytes) <;> simp [found]

/-- A token type is spelled in one byte, or in two of which the first is zero. -/
theorem tokenType_eq_ok_iff {bytes : Bytes} {t : TokenType} :
    tokenType bytes = .ok t ↔ bytes = [t.code] ∨ bytes = [0, t.code] := by
  match bytes with
  | [] => simp [tokenType]
  | [low] =>
    rw [tokenType_of_length (.inl rfl)]
    simp [Bytes.bigEndian, Bytes.littleEndian, UInt8.toNat_inj]
  | [high, low] =>
    have code := t.code.toNat_lt
    have low' := low.toNat_lt
    rw [tokenType_of_length (.inr rfl)]
    simp only [Bytes.bigEndian, Bytes.littleEndian, List.reverse_cons, List.reverse_nil,
      List.nil_append, List.cons_append, List.cons.injEq, and_true, ← UInt8.toNat_inj]
    simp
    omega
  | _ :: _ :: _ :: _ => simp [tokenType]

theorem outputQuantities_eq_ok_iff {quantities accepted : List UInt64} :
    outputQuantities quantities = .ok accepted ↔
      quantities = accepted ∧ 1 ≤ accepted.length ∧ accepted.length ≤ 19 := by
  constructor
  · intro h
    unfold outputQuantities at h
    split at h
    next => cases h
    next =>
      split at h
      next => cases h
      next =>
        cases h
        exact ⟨rfl, by omega, by omega⟩
  · intro h
    obtain ⟨rfl, some, few⟩ := h
    rw [outputQuantities, if_neg (by omega), if_neg (by omega)]

end Rule

end SimpleLedger
