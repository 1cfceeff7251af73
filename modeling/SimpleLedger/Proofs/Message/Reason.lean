import SimpleLedger.Message.Reader
import SimpleLedger.Proofs.Text.Printable

namespace SimpleLedger

variable {α β : Type} {P : DecodeError → Prop}

/-- Whatever error there is has a property. -/
def Blames (P : DecodeError → Prop) (outcome : Except DecodeError α) : Prop :=
  ∀ e, outcome = .error e → P e

theorem blames_ok {a : α} : Blames P (.ok a : Except DecodeError α) := by
  intro e h
  cases h

theorem blames_error {e : DecodeError} (h : P e) : Blames P (.error e : Except DecodeError α) := by
  intro e' h'
  cases h'
  exact h

theorem Blames.bind {outcome : Except DecodeError α} {next : α → Except DecodeError β}
    (h : Blames P outcome) (hn : ∀ a, Blames P (next a)) : Blames P (outcome >>= next) := by
  intro e refused
  cases outcome with
  | ok a => exact hn a e refused
  | error e' =>
    cases refused
    exact h e rfl

theorem blames_mapM {f : α → Except DecodeError β} {xs : List α} (h : ∀ a, Blames P (f a)) :
    Blames P (xs.mapM f) := by
  induction xs with
  | nil => exact blames_ok
  | cons x xs ih =>
    rw [List.mapM_cons]
    exact (h x).bind fun _ => ih.bind fun _ => blames_ok

namespace FieldReader

/-- Whatever fields a reader refuses, its error has a property. -/
def Blames (P : DecodeError → Prop) (reader : FieldReader α) : Prop :=
  ∀ fields, SimpleLedger.Blames P (reader.on fields).1

theorem blames_pure {a : α} : Blames P (pure a : FieldReader α) :=
  fun _ => blames_ok

theorem Blames.bind {reader : FieldReader α} {next : α → FieldReader β} (h : Blames P reader)
    (hn : ∀ a, Blames P (next a)) : Blames P (reader >>= next) := by
  intro fields
  rw [on_bind]
  have first := h fields
  cases read : reader.on fields with
  | mk outcome left =>
    rw [read] at first
    cases outcome with
    | ok a => exact hn a left
    | error e => exact blames_error (first e rfl)

theorem Blames.map {f : α → β} {reader : FieldReader α} (h : Blames P reader) :
    Blames P (f <$> reader) := by
  rw [← bind_pure_comp]
  exact h.bind fun _ => blames_pure

theorem blames_next {name : String} (h : P (.missingField name)) : Blames P (next name) := by
  intro fields
  cases fields with
  | nil => exact blames_error h
  | cons field left => exact blames_ok

theorem blames_rest : Blames P rest :=
  fun _ => blames_ok

theorem blames_check {outcome : Except DecodeError α} (h : SimpleLedger.Blames P outcome) :
    Blames P (check outcome) :=
  fun _ => h

theorem blames_nextBy {name : String} {rule : Bytes → Except DecodeError α}
    (h : P (.missingField name)) (hr : ∀ field, SimpleLedger.Blames P (rule field)) :
    Blames P (nextBy name rule) :=
  (blames_next h).bind fun field => blames_check (hr field)

theorem blames_finish {transactionType : String}
    (h : ∀ count, P (.trailingData transactionType count)) : Blames P (finish transactionType) := by
  intro fields
  cases fields with
  | nil => exact blames_ok
  | cons field left => exact blames_error (h _)

end FieldReader

/-- Whether an error is about the fields of a script, not about how they stand in it. -/
def DecodeError.OfFields : DecodeError → Prop
  | malformedScript _ => False
  | notSlp _ => False
  | _ => True

open Text (IsPrintable)

/-- The texts that an error carries are printable. -/
def DecodeError.Plain : DecodeError → Prop
  | malformedScript detail => IsPrintable detail
  | notSlp detail => IsPrintable detail
  | unsupportedTokenType detail => IsPrintable detail
  | unknownTransactionType detail => IsPrintable detail
  | unsupportedTransactionType detail => IsPrintable detail
  | missingField name => IsPrintable name
  | trailingData transactionType _ => IsPrintable transactionType
  | invalidDecimals detail => IsPrintable detail
  | invalidMintBaton detail => IsPrintable detail
  | invalidQuantityEncoding field _ => IsPrintable field
  | invalidNft1Child detail => IsPrintable detail
  | _ => True

/-- An error about the fields of a script that says nothing unprintable of them. -/
structure DecodeError.PlainOfFields (e : DecodeError) : Prop where
  ofFields : e.OfFields
  plain : e.Plain

theorem TransactionType.name_printable (t : TransactionType) : IsPrintable t.name := by
  cases t <;> decide

namespace Rule

open DecodeError (PlainOfFields)

theorem hexCode_printable (code : Nat) : IsPrintable (hexCode code) := by
  have digits := @Text.toDigits_printable 16 code (by decide) (by decide)
  refine Text.isPrintable_append.mpr ⟨by decide, ?_⟩
  rw [IsPrintable, String.toList_ofList]
  split
  next => exact List.forall_mem_cons.mpr ⟨by decide, digits⟩
  next => exact digits

/-- A tag with any other than visible characters is not echoed. -/
theorem describeTag_printable (tag : Bytes) : IsPrintable (describeTag tag) := by
  unfold describeTag
  split
  next echoed =>
    refine Text.isPrintable_append.mpr ⟨Text.isPrintable_append.mpr ⟨by decide, ?_⟩, by decide⟩
    rw [IsPrintable, String.toList_ofList]
    refine List.forall_mem_map.mpr fun b mem => ?_
    have visible := List.all_eq_true.mp echoed.2.2 b mem
    simp only [Bool.and_eq_true, decide_eq_true_eq, UInt8.le_iff_toNat_le] at visible
    have low : 0x21 ≤ b.toNat := visible.1
    have high : b.toNat ≤ 0x7e := visible.2
    rw [Text.toNat_ofNat (by omega)]
    omega
  next => exact Text.isPrintable_around tag.length (by decide) (by decide)

theorem quantity_blames {name : String} (plain : IsPrintable name) (bytes : Bytes) :
    Blames PlainOfFields (quantity name bytes) := by
  unfold quantity
  split
  next => exact blames_ok
  next => exact blames_error ⟨trivial, plain⟩

theorem decimals_blames (bytes : Bytes) : Blames PlainOfFields (decimals bytes) := by
  unfold decimals
  split
  next n =>
    split
    next => exact blames_ok
    next => exact blames_error ⟨trivial, Text.isPrintable_before n.toNat (by decide)⟩
  next => exact blames_error ⟨trivial, Text.isPrintable_around _ (by decide) (by decide)⟩

theorem mintBaton_blames (bytes : Bytes) : Blames PlainOfFields (mintBaton bytes) := by
  unfold mintBaton
  split
  next => exact blames_ok
  next =>
    split
    next => exact blames_ok
    next => exact blames_error ⟨trivial, Text.isPrintable_around _ (by decide) (by decide)⟩
  next => exact blames_error ⟨trivial, Text.isPrintable_around _ (by decide) (by decide)⟩

theorem tokenId_blames (bytes : Bytes) : Blames PlainOfFields (tokenId bytes) := by
  unfold tokenId
  split
  next => exact blames_ok
  next => exact blames_error ⟨trivial, trivial⟩

theorem documentHash_blames (bytes : Bytes) : Blames PlainOfFields (documentHash bytes) := by
  unfold documentHash
  split
  next => exact blames_ok
  next => exact blames_error ⟨trivial, trivial⟩

theorem tokenType_blames (bytes : Bytes) : Blames PlainOfFields (tokenType bytes) := by
  unfold tokenType
  split
  next =>
    dsimp only
    split
    next => exact blames_ok
    next => exact blames_error ⟨trivial, hexCode_printable _⟩
  next => exact blames_error ⟨trivial, Text.isPrintable_before bytes.length (by decide)⟩

theorem transactionType_blames (tag : Bytes) : Blames PlainOfFields (transactionType tag) := by
  unfold transactionType
  split
  next => exact blames_ok
  next => exact blames_error ⟨trivial, describeTag_printable tag⟩

theorem childGenesis_blames (genesis : Genesis) : Blames PlainOfFields (childGenesis genesis) := by
  unfold childGenesis
  split
  next => exact blames_error ⟨trivial, show IsPrintable "decimals must be 0" by decide⟩
  next =>
    split
    next => exact blames_error ⟨trivial, show IsPrintable "must not create a mint baton" by decide⟩
    next =>
      split
      next => exact blames_error ⟨trivial, show IsPrintable "quantity must be 1" by decide⟩
      next => exact blames_ok

theorem outputQuantities_blames (quantities : List UInt64) :
    Blames PlainOfFields (outputQuantities quantities) := by
  unfold outputQuantities
  split
  next => exact blames_error ⟨trivial, trivial⟩
  next =>
    split
    next => exact blames_error ⟨trivial, trivial⟩
    next => exact blames_ok

end Rule

open FieldReader DecodeError

/-- A field that is missing by a printable name. -/
theorem missingField_plain {name : String} (plain : IsPrintable name) :
    (missingField name).PlainOfFields :=
  ⟨trivial, plain⟩

theorem Genesis.read_blames (tokenType : TokenType) :
    FieldReader.Blames PlainOfFields (Genesis.read tokenType) := by
  refine (blames_next (missingField_plain (by decide))).bind fun ticker => ?_
  refine (blames_next (missingField_plain (by decide))).bind fun name => ?_
  refine (blames_next (missingField_plain (by decide))).bind fun documentUri => ?_
  refine (blames_nextBy (missingField_plain (by decide)) Rule.documentHash_blames).bind
    fun documentHash => ?_
  refine (blames_nextBy (missingField_plain (by decide)) Rule.decimals_blames).bind
    fun decimals => ?_
  refine (blames_nextBy (missingField_plain (by decide)) Rule.mintBaton_blames).bind
    fun baton => ?_
  refine (blames_nextBy (missingField_plain (by decide)) (Rule.quantity_blames (by decide))).bind
    fun quantity => ?_
  dsimp only
  split
  next => exact blames_check (Rule.childGenesis_blames _)
  next => exact blames_pure

theorem Mint.read_blames (tokenType : TokenType) :
    FieldReader.Blames PlainOfFields (Mint.read tokenType) := by
  unfold Mint.read
  split
  next =>
    exact fun _ => blames_error ⟨trivial, show IsPrintable "MINT is not permitted" by decide⟩
  next =>
    refine (blames_nextBy (missingField_plain (by decide)) Rule.tokenId_blames).bind
      fun tokenId => ?_
    refine (blames_nextBy (missingField_plain (by decide)) Rule.mintBaton_blames).bind
      fun baton => ?_
    exact (blames_nextBy (missingField_plain (by decide)) (Rule.quantity_blames (by decide))).bind
      fun quantity => blames_pure

theorem Send.read_blames : FieldReader.Blames PlainOfFields Send.read := by
  refine (blames_nextBy (missingField_plain (by decide)) Rule.tokenId_blames).bind
    fun tokenId => ?_
  refine blames_rest.bind fun fields => ?_
  refine (blames_check (blames_mapM (Rule.quantity_blames (by decide)))).bind fun quantities => ?_
  exact (blames_check (Rule.outputQuantities_blames _)).bind fun _ => blames_pure

theorem Action.read_blames (tokenType : TokenType) (transactionType : TransactionType) :
    FieldReader.Blames PlainOfFields (Action.read tokenType transactionType) := by
  cases transactionType with
  | genesis => exact (Genesis.read_blames tokenType).map
  | mint => exact (Mint.read_blames tokenType).map
  | send => exact Send.read_blames.map
  | commit => exact blames_check (blames_error ⟨trivial, TransactionType.name_printable .commit⟩)

/-- No message is refused for its script once its fields are read, and what is said of the fields is
printable. -/
theorem Message.read_blames : FieldReader.Blames PlainOfFields Message.read := by
  refine (blames_nextBy (missingField_plain (by decide)) Rule.tokenType_blames).bind
    fun tokenType => ?_
  refine (blames_nextBy (missingField_plain (by decide)) Rule.transactionType_blames).bind
    fun transactionType => ?_
  refine (Action.read_blames tokenType transactionType).bind fun action => ?_
  exact (blames_finish fun _ => ⟨trivial, transactionType.name_printable⟩).bind fun _ => blames_pure

end SimpleLedger
