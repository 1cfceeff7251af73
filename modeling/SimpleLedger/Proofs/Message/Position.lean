import SimpleLedger.Proofs.Message.Appended

namespace SimpleLedger

/-- A place among the fields of an action: the name of its field, and what the bytes there must
be. -/
structure Slot where
  name : String
  Obeys : Bytes → Prop

namespace Slot

def free (name : String) : Slot := ⟨name, fun _ => True⟩

def documentHash : Slot := ⟨"document_hash", fun bytes => bytes.length = 0 ∨ bytes.length = 32⟩

def decimals : Slot := ⟨"decimals", fun bytes => ∃ n, bytes = [n] ∧ n ≤ 9⟩

def mintBaton : Slot :=
  ⟨"mint_baton_vout", fun bytes => bytes = [] ∨ ∃ vout, bytes = [vout] ∧ 2 ≤ vout⟩

def quantity (name : String) : Slot := ⟨name, fun bytes => bytes.length = 8⟩

def tokenId : Slot := ⟨"token_id", fun bytes => bytes.length = 32⟩

end Slot

def Genesis.slots : List Slot :=
  [.free "ticker", .free "name", .free "document_uri", .documentHash, .decimals, .mintBaton,
    .quantity "initial_quantity"]

def Mint.slots : List Slot :=
  [.tokenId, .mintBaton, .quantity "additional_quantity"]

/-- As many fields as there are places, each obeying the rule of its own. -/
abbrev Obeyed (slots : List Slot) (fields : List Bytes) : Prop :=
  List.Forall₂ Slot.Obeys slots fields

/-- Whether an error is about the bytes of one field, and not that there is none or that the fields
do not go together. -/
def DecodeError.OfOneField : DecodeError → Prop
  | missingField _ => False
  | invalidNft1Child _ => False
  | _ => True

/-- A rule accepts just the bytes that obey, and refuses all others for what they are. -/
structure Slot.CheckedBy {α : Type} (slot : Slot) (rule : Bytes → Except DecodeError α) : Prop where
  accepts : ∀ bytes, slot.Obeys bytes → ∃ a, rule bytes = .ok a
  refuses : ∀ bytes, ¬ slot.Obeys bytes → ∃ e, rule bytes = .error e ∧ e.OfOneField

section Rules

theorem Slot.documentHash_checked : Slot.documentHash.CheckedBy Rule.documentHash where
  accepts bytes obeys := ⟨bytes, if_pos obeys⟩
  refuses bytes broken := ⟨.invalidHashLength bytes.length, if_neg broken, trivial⟩

theorem Slot.decimals_checked : Slot.decimals.CheckedBy Rule.decimals where
  accepts bytes obeys := by
    obtain ⟨n, rfl, few⟩ := obeys
    exact ⟨n, Rule.decimals_eq_ok_iff.mpr ⟨rfl, few⟩⟩
  refuses bytes broken := by
    unfold Rule.decimals
    split
    next n =>
      have many : ¬ n ≤ 9 := fun few => broken ⟨n, rfl, few⟩
      rw [if_neg many]
      exact ⟨_, rfl, trivial⟩
    next => exact ⟨_, rfl, trivial⟩

theorem Slot.mintBaton_checked : Slot.mintBaton.CheckedBy Rule.mintBaton where
  accepts bytes obeys := by
    rcases obeys with rfl | ⟨vout, rfl, high⟩
    · exact ⟨none, rfl⟩
    · exact ⟨some vout, if_pos high⟩
  refuses bytes broken := by
    unfold Rule.mintBaton
    split
    next => exact absurd (.inl rfl) broken
    next vout =>
      have low : ¬ 2 ≤ vout := fun high => broken (.inr ⟨vout, rfl, high⟩)
      rw [if_neg low]
      exact ⟨_, rfl, trivial⟩
    next => exact ⟨_, rfl, trivial⟩

theorem Slot.quantity_checked (name : String) :
    (Slot.quantity name).CheckedBy (Rule.quantity name) where
  accepts _ obeys := ⟨_, if_pos obeys⟩
  refuses bytes broken := ⟨.invalidQuantityEncoding name bytes.length, if_neg broken, trivial⟩

theorem Slot.tokenId_checked : Slot.tokenId.CheckedBy Rule.tokenId where
  accepts bytes obeys := ⟨⟨bytes, obeys⟩, Rule.tokenId_eq_ok_iff.mpr rfl⟩
  refuses bytes broken := by
    have none : TokenId.ofBytes? bytes = none := dif_neg broken
    refine ⟨.invalidTokenId bytes.length, ?_, trivial⟩
    rw [Rule.tokenId, none]

theorem Rule.childGenesis_blames_child (g : Genesis) :
    Blames (fun e => ∃ detail, e = .invalidNft1Child detail) (Rule.childGenesis g) := by
  unfold Rule.childGenesis
  split
  next => exact blames_error ⟨_, rfl⟩
  next =>
    split
    next => exact blames_error ⟨_, rfl⟩
    next =>
      split
      next => exact blames_error ⟨_, rfl⟩
      next => exact blames_ok

end Rules

namespace FieldReader

variable {α β : Type} {slots : List Slot} {child : Prop}

/-- What reading by places can end with. A field is missing, or breaks the rule of its place, or
there is one for every place; what joins them is checked last, and concerns a `child` only. -/
inductive Ends (reader : FieldReader α) (slots : List Slot) (child : Prop) :
    List Bytes → Except DecodeError α × List Bytes → Prop
  | missing {fields : List Bytes} {slot : Slot} : Obeyed (slots.take fields.length) fields →
    slots[fields.length]? = some slot →
    Ends reader slots child fields (.error (.missingField slot.name), [])
  | broken {before left : List Bytes} {bad : Bytes} {slot : Slot} {e : DecodeError} :
    Obeyed (slots.take before.length) before → slots[before.length]? = some slot →
    ¬ slot.Obeys bad → e.OfOneField →
    (∀ other, reader.on (before ++ bad :: other) = (.error e, other)) →
    Ends reader slots child (before ++ bad :: left) (.error e, left)
  | all {taken left : List Bytes} {outcome : Except DecodeError α} : Obeyed slots taken →
    (∀ other, reader.on (taken ++ other) = (outcome, other)) →
    SimpleLedger.Blames (fun e => child ∧ ∃ detail, e = .invalidNft1Child detail) outcome →
    Ends reader slots child (taken ++ left) (outcome, left)

/-- Whatever the fields, the reader takes them by these places. -/
def Follows (reader : FieldReader α) (slots : List Slot) (child : Prop) : Prop :=
  ∀ fields, reader.Ends slots child fields (reader.on fields)

/-- A field that obeys is taken, and reading goes on with the places that are left. -/
theorem Ends.cons {reader continued : FieldReader α} {slot : Slot} {field : Bytes}
    {left : List Bytes} {result : Except DecodeError α × List Bytes} (obeys : slot.Obeys field)
    (same : ∀ left, reader.on (field :: left) = continued.on left)
    (ends : continued.Ends slots child left result) :
    reader.Ends (slot :: slots) child (field :: left) result := by
  cases ends with
  | missing obeyed found => exact .missing (List.Forall₂.cons obeys obeyed) found
  | @broken before left bad next e obeyed found breaks one outcome =>
    have obeyed : Obeyed ((slot :: slots).take (field :: before).length) (field :: before) :=
      .cons obeys obeyed
    exact .broken obeyed found breaks one fun other => (same _).trans (outcome other)
  | @all taken left outcome obeyed settled blames =>
    have obeyed : Obeyed (slot :: slots) (field :: taken) := .cons obeys obeyed
    exact .all obeyed (fun other => (same _).trans (settled other)) blames

theorem follows_nil {reader : FieldReader α} {outcome : Except DecodeError α}
    (settled : ∀ fields, reader.on fields = (outcome, fields))
    (blames : SimpleLedger.Blames (fun e => child ∧ ∃ detail, e = .invalidNft1Child detail)
      outcome) : reader.Follows [] child := by
  intro fields
  rw [settled]
  exact .all .nil settled blames

theorem Follows.next {name : String} {continued : Bytes → FieldReader α}
    (follows : ∀ bytes, (continued bytes).Follows slots child) :
    (FieldReader.next name >>= continued).Follows (.free name :: slots) child := by
  intro fields
  cases fields with
  | nil => exact @Ends.missing _ _ _ _ [] (.free name) .nil rfl
  | cons field left =>
    have obeys : (Slot.free name).Obeys field := trivial
    rw [on_next_bind]
    exact (follows field left).cons obeys fun left => on_next_bind

theorem Follows.nextBy {slot : Slot} {rule : Bytes → Except DecodeError β}
    {continued : β → FieldReader α} (checked : slot.CheckedBy rule)
    (follows : ∀ b, (continued b).Follows slots child) :
    (FieldReader.nextBy slot.name rule >>= continued).Follows (slot :: slots) child := by
  intro fields
  cases fields with
  | nil => exact @Ends.missing _ _ _ _ [] slot .nil rfl
  | cons field left =>
    by_cases obeys : slot.Obeys field
    · obtain ⟨b, accepted⟩ := checked.accepts field obeys
      rw [on_nextBy_bind accepted]
      exact (follows b left).cons obeys fun left => on_nextBy_bind accepted
    · obtain ⟨e, refused, one⟩ := checked.refuses field obeys
      have outcome (other : List Bytes) :
          (FieldReader.nextBy slot.name rule >>= continued).on (field :: other) =
            (.error e, other) := by
        rw [on_bind, on_nextBy_cons, refused]
      rw [outcome]
      exact @Ends.broken _ _ _ _ [] left field slot e .nil rfl obeys one outcome

/-- How a reader fails by these places alone. An error about one field says that the fields before
it obey and that it does not, and stands whatever follows; a missing field is the first for which
there is none; and success takes one field for each place. -/
structure FailsByPosition (reader : FieldReader α) (slots : List Slot) : Prop where
  broken {fields left : List Bytes} {e : DecodeError} : reader.on fields = (.error e, left) →
    e.OfOneField → ∃ before bad slot, fields = before ++ bad :: left ∧
      Obeyed (slots.take before.length) before ∧ slots[before.length]? = some slot ∧
      ¬ slot.Obeys bad ∧ ∀ other, reader.on (before ++ bad :: other) = (.error e, other)
  missing {fields left : List Bytes} {name : String} :
    reader.on fields = (.error (.missingField name), left) →
      left = [] ∧ Obeyed (slots.take fields.length) fields ∧
      (slots.map Slot.name)[fields.length]? = some name ∧
      ∀ more, more ≠ [] → (reader.on (fields ++ more)).1 ≠ .error (.missingField name)
  accepted {fields left : List Bytes} {a : α} : reader.on fields = (.ok a, left) →
    ∃ taken, fields = taken ++ left ∧ taken.length = slots.length ∧
      ∀ other, reader.on (taken ++ other) = (.ok a, other)

namespace Follows

variable {reader : FieldReader α} {fields left : List Bytes}

theorem missing (follows : reader.Follows slots child) {name : String}
    (h : reader.on fields = (.error (.missingField name), left)) :
    left = [] ∧ Obeyed (slots.take fields.length) fields ∧
      (slots.map Slot.name)[fields.length]? = some name := by
  have ends := follows fields
  rw [h] at ends
  cases ends with
  | missing obeyed found => exact ⟨rfl, obeyed, by rw [List.getElem?_map, found, Option.map_some]⟩
  | broken _ _ _ one => exact one.elim
  | all _ _ blames =>
    obtain ⟨_, _, eq⟩ := blames _ rfl
    cases eq

/-- What joins the fields is checked after all of them. -/
theorem joint (follows : reader.Follows slots child) {detail : String}
    (h : reader.on fields = (.error (.invalidNft1Child detail), left)) :
    child ∧ ∃ taken, fields = taken ++ left ∧ Obeyed slots taken := by
  have ends := follows fields
  rw [h] at ends
  cases ends with
  | broken _ _ _ one => exact one.elim
  | @all taken _ _ obeyed _ blames => exact ⟨(blames _ rfl).1, taken, rfl, obeyed⟩

theorem failsByPosition (follows : reader.Follows slots child)
    (distinct : (slots.map Slot.name).Nodup) : reader.FailsByPosition slots where
  broken {fields left e} h one := by
    have ends := follows fields
    rw [h] at ends
    cases ends with
    | missing => exact one.elim
    | @broken before _ bad slot _ obeyed found breaks _ outcome =>
      exact ⟨before, bad, slot, rfl, obeyed, found, breaks, outcome⟩
    | all _ _ blames =>
      obtain ⟨_, _, rfl⟩ := blames e rfl
      exact one.elim
  missing {fields left name} h := by
    obtain ⟨nothing, obeyed, found⟩ := follows.missing h
    refine ⟨nothing, obeyed, found, fun more nonempty again => ?_⟩
    -- the same name would also stand at the place after all the fields there are now
    have found' := (follows.missing (Prod.ext again rfl)).2.2
    have bound := (List.getElem?_eq_some_iff.mp found).1
    have same := (List.getElem?_inj bound distinct).mp (found.trans found'.symm)
    have longer := List.length_pos_iff.mpr nonempty
    rw [List.length_append] at same
    omega
  accepted {fields left a} h := by
    have ends := follows fields
    rw [h] at ends
    cases ends with
    | @all taken _ _ obeyed settled _ => exact ⟨taken, rfl, obeyed.length_eq.symm, settled⟩

end Follows

end FieldReader

section Readers

open FieldReader (on_bind on_nextBy_cons follows_nil)

/-- The places of a genesis are checked in order; what joins the fields comes last. -/
theorem Genesis.read_follows (tokenType : TokenType) :
    (Genesis.read tokenType).Follows slots (tokenType = .nft1Child) := by
  refine .next fun ticker => .next fun name => .next fun uri =>
    .nextBy Slot.documentHash_checked fun hash => .nextBy Slot.decimals_checked fun decimals =>
    .nextBy Slot.mintBaton_checked fun baton => .nextBy (Slot.quantity_checked _) fun quantity => ?_
  by_cases child : tokenType = .nft1Child
  · rw [if_pos child]
    exact follows_nil (fun _ => rfl) fun e refused =>
      ⟨child, Rule.childGenesis_blames_child _ e refused⟩
  · rw [if_neg child]
    exact follows_nil (fun _ => rfl) blames_ok

theorem Mint.read_follows {tokenType : TokenType} (permitted : tokenType ≠ .nft1Child) :
    (Mint.read tokenType).Follows slots False := by
  rw [Mint.read, if_neg permitted]
  exact .nextBy Slot.tokenId_checked fun id => .nextBy Slot.mintBaton_checked fun baton =>
    .nextBy (Slot.quantity_checked _) fun quantity => follows_nil (fun _ => rfl) blames_ok

theorem Mint.read_child (fields : List Bytes) :
    (Mint.read .nft1Child).on fields =
      (.error (.invalidNft1Child "MINT is not permitted"), fields) :=
  rfl

theorem Mint.read_failsByPosition (tokenType : TokenType) :
    (Mint.read tokenType).FailsByPosition slots := by
  by_cases child : tokenType = .nft1Child
  · subst child
    constructor
    · intro fields left e h one
      cases h
      exact one.elim
    · intro fields left name h
      cases h
    · intro fields left a h
      cases h
  · exact (read_follows child).failsByPosition (by decide)

theorem Mint.read_blames_child_iff {tokenType : TokenType} {fields left : List Bytes}
    {detail : String} :
    (Mint.read tokenType).on fields = (.error (.invalidNft1Child detail), left) ↔
      tokenType = .nft1Child ∧ detail = "MINT is not permitted" ∧ left = fields := by
  by_cases child : tokenType = .nft1Child
  · subst child
    simp [Mint.read_child, eq_comm]
  · exact ⟨fun h => ((read_follows child).joint h).1.elim, fun h => absurd h.1 child⟩

/-- A send takes all there is after a valid token id, and its quantities are checked in order. -/
theorem Send.read_cons {id : Bytes} (length : id.length = 32) (fields : List Bytes) :
    Send.read.on (id :: fields) =
      ((fields.mapM (Rule.quantity "token_output_quantity") >>= Rule.outputQuantities).map
        (Send.mk ⟨id, length⟩), []) :=
  Send.read_append ⟨⟨id, length⟩, []⟩ fields

theorem Send.read_of_invalid_id {id : Bytes} (length : id.length ≠ 32) (fields : List Bytes) :
    Send.read.on (id :: fields) = (.error (.invalidTokenId id.length), fields) := by
  have none : TokenId.ofBytes? id = none := dif_neg length
  rw [Send.read, on_bind, on_nextBy_cons, Rule.tokenId, none]

theorem Send.read_of_broken_quantity {id bad : Bytes} {before : List Bytes}
    (length : id.length = 32) (eight : ∀ field ∈ before, field.length = 8)
    (broken : bad.length ≠ 8) (after : List Bytes) :
    Send.read.on (id :: (before ++ bad :: after)) =
      (.error (.invalidQuantityEncoding "token_output_quantity" bad.length), []) := by
  have first : (before ++ bad :: after).find? (fun field => field.length ≠ 8) = some bad := by
    rw [List.find?_append, List.find?_eq_none.mpr (by simpa using eight)]
    simp [broken]
  rw [read_cons length, mapM_quantity, first]
  rfl

end Readers

/-- The readers of a genesis and of a mint fail by the places of their fields alone, but for what a
single non-fungible token may not do: that is checked after every field of a genesis, and before any
of a mint. A send with a valid token id takes every field, and the first quantity that is not eight
bytes long decides, however many there are. -/
theorem Action.readers_fail_by_position (tokenType : TokenType) :
    ((Genesis.read tokenType).FailsByPosition Genesis.slots ∧ Genesis.slots.length = 7 ∧
      ∀ fields left detail,
        (Genesis.read tokenType).on fields = (.error (.invalidNft1Child detail), left) →
          tokenType = .nft1Child ∧ ∃ taken, fields = taken ++ left ∧ Obeyed Genesis.slots taken) ∧
    ((Mint.read tokenType).FailsByPosition Mint.slots ∧ Mint.slots.length = 3 ∧
      ∀ fields left detail,
        (Mint.read tokenType).on fields = (.error (.invalidNft1Child detail), left) ↔
          tokenType = .nft1Child ∧ detail = "MINT is not permitted" ∧ left = fields) ∧
    ∀ id : Bytes,
      (id.length ≠ 32 → ∀ fields,
        Send.read.on (id :: fields) = (.error (.invalidTokenId id.length), fields)) ∧
      (id.length = 32 → ∀ fields, (Send.read.on (id :: fields)).2 = [] ∧
        ∀ before bad after, fields = before ++ bad :: after →
          (∀ field ∈ before, field.length = 8) → bad.length ≠ 8 →
            (Send.read.on (id :: fields)).1 =
              .error (.invalidQuantityEncoding "token_output_quantity" bad.length)) := by
  have genesis := Genesis.read_follows tokenType
  refine ⟨⟨genesis.failsByPosition (by decide), rfl, fun _ _ _ => genesis.joint⟩,
    ⟨Mint.read_failsByPosition tokenType, rfl, fun _ _ _ => Mint.read_blames_child_iff⟩,
    fun id => ⟨fun invalid fields => Send.read_of_invalid_id invalid fields,
      fun valid fields => ⟨?_, ?_⟩⟩⟩
  · rw [Send.read_cons valid]
  · rintro before bad after rfl eight broken
    rw [Send.read_of_broken_quantity valid eight broken]

/-- A hash of two bytes is refused for its length, also before decimals that are too many, and
whatever else stands after it. -/
theorem Action.readers_fail_by_position_of_faulty_genesis :
    (Genesis.read .fungible).on [[0x41], [], [], [0x01, 0x02], [12]] =
      (.error (.invalidHashLength 2), [[12]]) ∧
    ∀ other, (Genesis.read .fungible).on ([[0x41], [], [], [0x01, 0x02]] ++ other) =
      (.error (.invalidHashLength 2), other) := by
  have refused : (Genesis.read .fungible).on [[0x41], [], [], [0x01, 0x02], [12]] =
      (.error (.invalidHashLength 2), [[12]]) := rfl
  obtain ⟨before, bad, _, eq, _, _, _, same⟩ :=
    (readers_fail_by_position .fungible).1.1.broken refused trivial
  have joined : [[0x41], [], [], [0x01, 0x02]] ++ [[12]] = before ++ [bad] ++ [[12]] :=
    eq.trans (List.append_cons before bad [[12]])
  refine ⟨refused, fun other => ?_⟩
  rw [List.append_cancel_right joined, ← List.append_cons]
  exact same other

end SimpleLedger
