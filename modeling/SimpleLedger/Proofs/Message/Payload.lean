import SimpleLedger.Proofs.Message.Parallel
import SimpleLedger.Proofs.Message.Plain
import SimpleLedger.Proofs.Message.Respelled
import SimpleLedger.Proofs.Message.Written

namespace SimpleLedger

open FieldReader

variable {field field' : Bytes}

namespace Rule

theorem quantity_agree (name : String) (length : field.length = field'.length) :
    Agree (fun _ _ => True) (quantity name field) (quantity name field') := by
  rw [quantity, quantity, length]
  split
  next => exact .ok trivial
  next => exact .error

theorem tokenId_agree (length : field.length = field'.length) :
    Agree (fun _ _ => True) (tokenId field) (tokenId field') := by
  by_cases full : field.length = 32
  · have full' : field'.length = 32 := length.symm.trans full
    have accepted : tokenId field = .ok ⟨field, full⟩ := tokenId_eq_ok_iff.mpr rfl
    have accepted' : tokenId field' = .ok ⟨field', full'⟩ := tokenId_eq_ok_iff.mpr rfl
    rw [accepted, accepted']
    exact .ok trivial
  · have full' : ¬ field'.length = 32 := fun h => full (length.trans h)
    rw [tokenId, tokenId, TokenId.ofBytes?, TokenId.ofBytes?, dif_neg full, dif_neg full', length]
    exact .error

theorem documentHash_agree (length : field.length = field'.length) :
    Agree (fun _ _ => True) (documentHash field) (documentHash field') := by
  rw [documentHash, documentHash, length]
  split
  next => exact .ok trivial
  next => exact .error

theorem childGenesis_agree {g g' : Genesis} (decimals : g.decimals = g'.decimals)
    (baton : g.mintBatonVout = g'.mintBatonVout)
    (quantity : g.initialQuantity = g'.initialQuantity) :
    Agree (fun _ _ => True) (childGenesis g) (childGenesis g') := by
  rw [childGenesis, childGenesis, decimals, baton, quantity]
  split
  next => exact .error
  next =>
    split
    next => exact .error
    next =>
      split
      next => exact .error
      next => exact .ok trivial

theorem outputQuantities_agree {quantities quantities' : List UInt64}
    (length : quantities.length = quantities'.length) :
    Agree (fun _ _ => True) (outputQuantities quantities) (outputQuantities quantities') := by
  rw [outputQuantities, outputQuantities, length]
  split
  next => exact .error
  next =>
    split
    next => exact .error
    next => exact .ok trivial

end Rule

/-- A rule that inspects its field comes out the same for the same field. -/
theorem agree_of_inspected {α : Type} {inspected : Prop} (rule : Bytes → Except DecodeError α)
    (seen : inspected) (_ : field.length = field'.length) (same : inspected → field = field') :
    Agree Eq (rule field) (rule field') := by
  rw [same seen]
  exact .refl (fun _ => rfl) _

/-- The readers of an action agree on fields that are alike, and leave equally many. -/
def FieldReader.Discreet {α : Type} (inspected : Nat → Prop) (reader : FieldReader α) : Prop :=
  FieldReader.Agree (Alike inspected) (fun _ _ => True)
    (fun left left' => left.length = left'.length) reader reader

theorem Genesis.read_discreet {tokenType : TokenType} {inspected : Nat → Prop}
    (decimals : inspected 4) (baton : inspected 5)
    (quantity : tokenType = .nft1Child → inspected 6) :
    (Genesis.read tokenType).Discreet inspected := by
  refine (agree_next "ticker" _).bind fun ticker ticker' _ => ?_
  refine (agree_next "name" _).bind fun name name' _ => ?_
  refine (agree_next "document_uri" _).bind fun uri uri' _ => ?_
  refine (agree_nextBy "document_hash" fun _ _ length _ => Rule.documentHash_agree length).bind
    fun hash hash' _ => ?_
  refine (agree_nextBy "decimals" fun _ _ => agree_of_inspected _ decimals).bind ?_
  rintro decimals _ rfl
  refine (agree_nextBy "mint_baton_vout" fun _ _ => agree_of_inspected _ baton).bind ?_
  rintro baton _ rfl
  by_cases child : tokenType = .nft1Child
  · refine (agree_nextBy "initial_quantity" fun _ _ =>
      agree_of_inspected _ (quantity child)).bind ?_
    rintro quantity _ rfl
    simp only [if_pos child]
    refine FieldReader.Agree.weaken (agree_check ?_) fun _ _ => Alike.length_eq
    exact Rule.childGenesis_agree rfl rfl rfl
  · refine (agree_nextBy "initial_quantity" fun _ _ length _ => Rule.quantity_agree _ length).bind
      fun quantity quantity' _ => ?_
    simp only [if_neg child]
    exact (agree_pure trivial).weaken fun _ _ => Alike.length_eq

theorem Mint.read_discreet {tokenType : TokenType} {inspected : Nat → Prop} (baton : inspected 1) :
    (Mint.read tokenType).Discreet inspected := by
  by_cases child : tokenType = .nft1Child
  · rw [Mint.read, if_pos child]
    exact fun _ _ _ => .error
  · rw [Mint.read, if_neg child]
    refine (agree_nextBy "token_id" fun _ _ length _ => Rule.tokenId_agree length).bind
      fun tokenId tokenId' _ => ?_
    refine (agree_nextBy "mint_baton_vout" fun _ _ => agree_of_inspected _ baton).bind
      fun baton baton' _ => ?_
    refine (agree_nextBy "additional_quantity" fun _ _ length _ =>
      Rule.quantity_agree _ length).bind fun quantity quantity' _ => ?_
    exact (agree_pure trivial).weaken fun _ _ => Alike.length_eq

theorem Send.read_discreet {inspected : Nat → Prop} : Send.read.Discreet inspected := by
  refine (agree_nextBy "token_id" fun _ _ length _ => Rule.tokenId_agree length).bind
    fun tokenId tokenId' _ => ?_
  refine agree_rest.bind fun fields fields' alike => ?_
  have quantities := Agree.mapM alike.lengths fun _ _ length =>
    Rule.quantity_agree "token_output_quantity" length
  refine (agree_check quantities).bind fun accepted accepted' related => ?_
  refine (agree_check (Rule.outputQuantities_agree related.length_eq)).bind fun _ _ _ => ?_
  exact (agree_pure trivial).weaken fun left left' empty => by rw [empty.1, empty.2]

/-- The fields of an action whose bytes an error can tell, by their places. -/
def Action.inspected (tokenType : TokenType) : TransactionType → List Nat
  | .genesis => [4, 5] ++ if tokenType = .nft1Child then [6] else []
  | .mint => [1]
  | .send => []
  | .commit => []

theorem Action.read_discreet {tokenType : TokenType} {transactionType : TransactionType}
    {inspected : Nat → Prop} (h : ∀ i ∈ Action.inspected tokenType transactionType, inspected i) :
    (Action.read tokenType transactionType).Discreet inspected := by
  cases transactionType with
  | genesis =>
    have quantity (child : tokenType = .nft1Child) : inspected 6 :=
      h 6 (by simp [Action.inspected, child])
    exact (Genesis.read_discreet (h 4 (by simp [Action.inspected]))
      (h 5 (by simp [Action.inspected])) quantity).map fun _ _ _ => trivial
  | mint => exact (Mint.read_discreet (h 1 (by simp [Action.inspected]))).map fun _ _ _ => trivial
  | send => exact Send.read_discreet.map fun _ _ _ => trivial
  | commit => exact fun _ _ _ => .error

/-- The places of the fields whose bytes an error can tell: the token type, the tag, in a genesis
the decimals and the baton, and the quantity of a single non-fungible token, in a mint the baton. -/
def Message.inspected : List Bytes → List Nat
  | code :: tag :: _ =>
    [0, 1] ++
      if tag = TransactionType.genesis.tag then
        [6, 7] ++ if code = [0x41] ∨ code = [0x00, 0x41] then [8] else []
      else if tag = TransactionType.mint.tag then [3]
      else []
  | _ => [0, 1]

namespace Message

theorem inspected_of_action {tokenType : TokenType} {transactionType : TransactionType}
    {code : Bytes} (left : List Bytes) (spelled : Rule.tokenType code = .ok tokenType) :
    ∀ i ∈ Action.inspected tokenType transactionType,
      i + 2 ∈ inspected (code :: transactionType.tag :: left) := by
  cases transactionType with
  | genesis =>
    have child (h : tokenType = .nft1Child) : code = [0x41] ∨ code = [0x00, 0x41] := by
      rw [h] at spelled
      exact Rule.tokenType_eq_ok_iff.mp spelled
    by_cases h : tokenType = .nft1Child
    · simp [Action.inspected, inspected, h, child h]
    · simp [Action.inspected, inspected, h]
  | mint => simp [Action.inspected, inspected, TransactionType.tag, TransactionType.letters]
  | send => exact List.forall_mem_nil _
  | commit => exact List.forall_mem_nil _

/-- The action and the end of a message are read alike where nothing that is inspected differs. -/
theorem read_action_discreet {tokenType : TokenType} {transactionType : TransactionType}
    {inspected : Nat → Prop} (h : ∀ i ∈ Action.inspected tokenType transactionType, inspected i) :
    (Action.read tokenType transactionType >>= fun action =>
      finish transactionType.name >>= fun _ =>
        (pure ⟨tokenType, action⟩ : FieldReader Message)).Discreet inspected := by
  refine (Action.read_discreet h).bind fun action action' _ => ?_
  refine (agree_finish fun _ _ many => many).bind fun _ _ _ => ?_
  exact agree_pure trivial

theorem read_discreet {fields fields' : List Bytes}
    (h : Alike (· ∈ inspected fields) fields fields') :
    Agree (fun _ _ => True) (read.on fields).1 (read.on fields').1 := by
  have same (fields : List Bytes) :
      Agree (fun _ _ => True) (read.on fields).1 (read.on fields).1 := .refl (fun _ => trivial) _
  match fields, fields', h with
  | [], fields', h =>
    obtain rfl := List.forall₂_nil_left_iff.mp h.lengths
    exact same []
  | [code], fields', h =>
    obtain ⟨code', left', _, rest, rfl⟩ := List.forall₂_cons_left_iff.mp h.lengths
    obtain rfl := List.forall₂_nil_left_iff.mp rest
    obtain rfl := (alike_cons_iff.mp h).2.1 (by simp [inspected])
    exact same [code]
  | code :: tag :: left, fields', h =>
    obtain ⟨code', _, _, rest, rfl⟩ := List.forall₂_cons_left_iff.mp h.lengths
    obtain ⟨tag', left', _, _, rfl⟩ := List.forall₂_cons_left_iff.mp rest
    obtain ⟨_, sameCode, afterCode⟩ := alike_cons_iff.mp h
    obtain ⟨_, sameTag, afterTag⟩ := alike_cons_iff.mp afterCode
    obtain rfl := sameCode (by simp [inspected])
    obtain rfl := sameTag (by simp [inspected])
    rw [read, on_nextBy_bind_fst, on_nextBy_bind_fst]
    cases type : Rule.tokenType code with
    | error e => exact .error
    | ok tokenType =>
      change Agree _ (((nextBy "transaction_type" Rule.transactionType >>= _).on (tag :: left)).1)
        (((nextBy "transaction_type" Rule.transactionType >>= _).on (tag :: left')).1)
      rw [on_nextBy_bind_fst, on_nextBy_bind_fst]
      cases kind : Rule.transactionType tag with
      | error e => exact .error
      | ok transactionType =>
        obtain rfl := Rule.transactionType_eq_ok_iff.mp kind
        exact (read_action_discreet (inspected_of_action left type) left left'
          afterTag).fst

end Message

/-- Whether and why a script of complete pushes is refused does not depend on the bytes of a field
that is not inspected, and whatever is refused, the text of the error is printable. -/
theorem Message.ofScript_error_discreet :
    (∀ fields fields' body body', Script.Pushes ([0x53, 0x4c, 0x50, 0x00] :: fields) body →
      Script.Pushes ([0x53, 0x4c, 0x50, 0x00] :: fields') body' →
      Alike (· ∈ inspected fields) fields fields' →
      ∀ e, ofScript (0x6a :: body) = .error e ↔ ofScript (0x6a :: body') = .error e) ∧
    ∀ script e, ofScript script = .error e →
      e.message ≠ "" ∧ ∀ c ∈ e.message.toList, 0x20 ≤ c.toNat ∧ c.toNat ≤ 0x7e := by
  constructor
  · intro fields fields' body body' pushes pushes' alike e
    have read : ofScript (0x6a :: body) = (Message.read.on fields).1 := ofScript_of_pushes pushes
    have read' : ofScript (0x6a :: body') = (Message.read.on fields').1 :=
      ofScript_of_pushes pushes'
    rw [read, read']
    exact (read_discreet alike).error_iff e
  · intro script e refused
    exact ⟨e.message_ne_empty, (ofScript_plain script e refused).message_printable⟩

/-- Two geneses whose tickers, names and document hashes differ, but not in length, are refused for
the length of the hash. -/
theorem Message.ofScript_error_discreet_of_short_hash :
    ofScript [0x6a, 0x04, 0x53, 0x4c, 0x50, 0x00, 0x01, 0x01, 0x07, 0x47, 0x45, 0x4e, 0x45, 0x53,
      0x49, 0x53, 0x01, 0x58, 0x01, 0x59, 0x4c, 0x00, 0x01, 0x5a] =
        .error (.invalidHashLength 1) ∧
      (DecodeError.invalidHashLength 1).message ≠ "" ∧
      ∀ c ∈ (DecodeError.invalidHashLength 1).message.toList, 0x20 ≤ c.toNat ∧ c.toNat ≤ 0x7e := by
  have direct {field : Bytes} (h : 1 ≤ field.length ∧ field.length ≤ 75) :
      Script.Spelling field (UInt8.ofNat field.length :: field) :=
    ⟨_, .direct h.1 h.2, rfl⟩
  have single (byte : UInt8) : Script.Spelling [byte] [0x01, byte] :=
    ⟨[0x01], .direct (Nat.le_refl 1) (by decide : 1 ≤ 75), rfl⟩
  have empty : Script.Spelling [] [0x4c, 0x00] := ⟨_, .one (by decide), rfl⟩
  have pushes (ticker name hash : UInt8) : Script.Pushes [[0x53, 0x4c, 0x50, 0x00], [0x01],
      [0x47, 0x45, 0x4e, 0x45, 0x53, 0x49, 0x53], [ticker], [name], [], [hash]]
      [0x04, 0x53, 0x4c, 0x50, 0x00, 0x01, 0x01, 0x07, 0x47, 0x45, 0x4e, 0x45, 0x53, 0x49, 0x53,
        0x01, ticker, 0x01, name, 0x4c, 0x00, 0x01, hash] :=
    .cons (direct (by decide)) (.cons (single 0x01) (.cons (direct (by decide))
      (.cons (single ticker) (.cons (single name) (.cons empty (.cons (single hash) .nil))))))
  have refused : ofScript (0x6a :: [0x04, 0x53, 0x4c, 0x50, 0x00, 0x01, 0x01, 0x07, 0x47, 0x45,
      0x4e, 0x45, 0x53, 0x49, 0x53, 0x01, 0x41, 0x01, 0x42, 0x4c, 0x00, 0x01, 0x43]) =
      .error (.invalidHashLength 1) :=
    (ofScript_of_pushes (pushes 0x41 0x42 0x43)).trans rfl
  have alike : Alike (· ∈ inspected [[0x01], [0x47, 0x45, 0x4e, 0x45, 0x53, 0x49, 0x53], [0x41],
      [0x42], [], [0x43]]) [[0x01], [0x47, 0x45, 0x4e, 0x45, 0x53, 0x49, 0x53], [0x41], [0x42], [],
      [0x43]] [[0x01], [0x47, 0x45, 0x4e, 0x45, 0x53, 0x49, 0x53], [0x58], [0x59], [], [0x5a]] :=
    ⟨by simp, by decide⟩
  have same := (ofScript_error_discreet.1 _ _ _ _ (pushes 0x41 0x42 0x43) (pushes 0x58 0x59 0x5a)
    alike _).mp refused
  exact ⟨same, ofScript_error_discreet.2 _ _ same⟩

end SimpleLedger
