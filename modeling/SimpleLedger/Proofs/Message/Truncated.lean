import SimpleLedger.Proofs.Message.Appended
import SimpleLedger.Proofs.Script.Beginning

namespace SimpleLedger

/-- The names of the fields that every message of a transaction type has, in order. The quantities
of a send have none of their own. -/
def TransactionType.schema : TransactionType → List String
  | .genesis =>
    ["token_type", "transaction_type", "ticker", "name", "document_uri", "document_hash",
      "decimals", "mint_baton_vout", "initial_quantity"]
  | .mint =>
    ["token_type", "transaction_type", "token_id", "mint_baton_vout", "additional_quantity"]
  | .send => ["token_type", "transaction_type", "token_id"]
  | .commit => ["token_type", "transaction_type"]

/-- What reading gives when only the first `count` fields of a message are left. -/
def Message.truncated (message : Message) (count : Nat) : Except DecodeError Message :=
  match message.transactionType.schema[count]? with
  | some name => .error (.missingField name)
  | none =>
    match message.action with
    | .send s =>
      if count = 3 then .error .tooFewOutputs
      else .ok ⟨message.tokenType, .send ⟨s.tokenId, s.outputQuantities.take (count - 3)⟩⟩
    | _ => .ok message

namespace FieldReader

variable {α β : Type} {name : String} {names : List String} {field : Bytes} {left : List Bytes}

/-- With fewer fields than there are names, the reader misses the next by its name. -/
def Misses (reader : FieldReader α) (names : List String) (fields : List Bytes) : Prop :=
  ∀ count name, names[count]? = some name →
    (reader.on (fields.take count)).1 = .error (.missingField name)

theorem misses_nil {reader : FieldReader α} : reader.Misses [] left := by
  intro count name found
  simp at found

theorem Misses.next {next' : Bytes → FieldReader β} (h : (next' field).Misses names left) :
    (next name >>= next').Misses (name :: names) (field :: left) := by
  intro count missing found
  cases count with
  | zero =>
    obtain rfl := Option.some.inj found
    rfl
  | succ count =>
    rw [List.take_succ_cons, on_next_bind]
    exact h count missing found

theorem Misses.nextBy {rule : Bytes → Except DecodeError α} {next' : α → FieldReader β} {a : α}
    (accepted : rule field = .ok a) (h : (next' a).Misses names left) :
    (nextBy name rule >>= next').Misses (name :: names) (field :: left) := by
  intro count missing found
  cases count with
  | zero =>
    obtain rfl := Option.some.inj found
    rfl
  | succ count =>
    rw [List.take_succ_cons, on_nextBy_bind accepted]
    exact h count missing found

theorem Misses.bind {reader : FieldReader α} {next' : α → FieldReader β}
    (h : reader.Misses names left) : (reader >>= next').Misses names left :=
  fun count missing found => on_bind_error (h count missing found)

theorem Misses.map {f : α → β} {reader : FieldReader α} (h : reader.Misses names left) :
    (f <$> reader).Misses names left := by
  rw [← bind_pure_comp]
  exact h.bind

end FieldReader

open FieldReader

theorem Genesis.read_misses {tokenType : TokenType} {g : Genesis} (valid : g.Valid tokenType) :
    (Genesis.read tokenType).Misses ["ticker", "name", "document_uri", "document_hash",
      "decimals", "mint_baton_vout", "initial_quantity"] (Action.genesis g).fields := by
  have hash := Rule.documentHash_eq_ok_iff.mpr ⟨rfl, valid.hash⟩
  have decimals := Rule.decimals_eq_ok_iff.mpr ⟨rfl, valid.decimals⟩
  have baton := Rule.mintBaton_eq_ok_iff.mpr ⟨rfl, valid.baton⟩
  have quantity := Rule.quantity_quantityField "initial_quantity" g.initialQuantity
  exact .next (.next (.next (.nextBy hash (.nextBy decimals (.nextBy baton
    (.nextBy quantity misses_nil))))))

theorem Mint.read_misses {tokenType : TokenType} {m : Mint} (valid : m.Valid tokenType) :
    (Mint.read tokenType).Misses ["token_id", "mint_baton_vout", "additional_quantity"]
      (Action.mint m).fields := by
  have baton := Rule.mintBaton_eq_ok_iff.mpr ⟨rfl, valid.baton⟩
  have quantity := Rule.quantity_quantityField "additional_quantity" m.additionalQuantity
  rw [Mint.read, if_neg valid.child]
  exact .nextBy (Rule.tokenId_bytes m.tokenId) (.nextBy baton (.nextBy quantity misses_nil))

theorem Send.read_misses (s : Send) : Send.read.Misses ["token_id"] (Action.send s).fields :=
  .nextBy (Rule.tokenId_bytes s.tokenId) misses_nil

namespace Message

variable {message : Message} {fields : List Bytes}

theorem read_misses (valid : message.Valid) (layout : message.Layout fields) :
    read.Misses message.transactionType.schema fields := by
  obtain ⟨code, spelled, rfl⟩ := layout_iff.mp layout
  have tokenType := Rule.tokenType_eq_ok_iff.mpr spelled
  have tag : Rule.transactionType message.transactionType.tag = .ok message.transactionType :=
    Rule.transactionType_eq_ok_iff.mpr rfl
  obtain ⟨tokenType, g | m | s⟩ := message
  · exact .nextBy tokenType (.nextBy tag (.bind (.map (Genesis.read_misses valid))))
  · exact .nextBy tokenType (.nextBy tag (.bind (.map (Mint.read_misses valid))))
  · exact .nextBy tokenType (.nextBy tag (.bind (.map (Send.read_misses s))))

/-- The first quantities of a send are read as if there were no others. -/
theorem read_take_of_send {s : Send} (layout : message.Layout fields)
    (sends : message.action = .send s) (count : Nat) :
    (read.on (fields.take (count + 3))).1 =
      (Rule.outputQuantities (s.outputQuantities.take count)).map fun quantities =>
        ⟨message.tokenType, .send ⟨s.tokenId, quantities⟩⟩ := by
  obtain ⟨code, spelled, rfl⟩ := layout_iff.mp layout
  obtain ⟨tokenType, action⟩ := message
  obtain rfl : action = .send s := sends
  have bare : Layout ⟨tokenType, .send ⟨s.tokenId, []⟩⟩
      [code, TransactionType.send.tag, s.tokenId.bytes] := layout_iff.mpr ⟨code, spelled, rfl⟩
  have first := read_append_of_send bare rfl ((s.outputQuantities.take count).map quantityField)
  rw [mapM_quantity_fields, List.map_take] at first
  exact first

/-- Only a send has fields without names of their own, its quantities. -/
theorem exists_sent (layout : message.Layout fields) {count : Nat} (fewer : count < fields.length)
    (unnamed : message.transactionType.schema[count]? = none) :
    ∃ s sent, message.action = .send s ∧ count = sent + 3 ∧ sent < s.outputQuantities.length := by
  have beyond := List.getElem?_eq_none_iff.mp unnamed
  obtain ⟨code, _, rfl⟩ := layout_iff.mp layout
  obtain ⟨tokenType, g | m | s⟩ := message
  · have all : count < 9 := fewer
    have named : 9 ≤ count := beyond
    omega
  · have all : count < 5 := fewer
    have named : 5 ≤ count := beyond
    omega
  · have named : 3 ≤ count := beyond
    obtain ⟨sent, rfl⟩ := Nat.exists_eq_add_of_le' named
    have some : sent < s.outputQuantities.length := by
      simp only [Action.fields, List.length_cons, List.length_map] at fewer
      omega
    exact ⟨s, sent, rfl, rfl, some⟩

theorem truncated_of_send (tokenType : TokenType) (s : Send) (sent : Nat) :
    truncated ⟨tokenType, .send s⟩ (sent + 3) =
      if sent = 0 then .error .tooFewOutputs
      else .ok ⟨tokenType, .send ⟨s.tokenId, s.outputQuantities.take sent⟩⟩ := by
  cases sent <;> rfl

theorem read_take (valid : message.Valid) (layout : message.Layout fields) {count : Nat}
    (fewer : count < fields.length) :
    (read.on (fields.take count)).1 = message.truncated count := by
  cases found : message.transactionType.schema[count]? with
  | some name =>
    rw [truncated, found]
    exact read_misses valid layout count name found
  | none =>
    obtain ⟨s, sent, sends, rfl, some⟩ := exists_sent layout fewer found
    obtain ⟨tokenType, action⟩ := message
    obtain rfl : action = .send s := sends
    have valid : s.Valid := valid
    have few := valid.few
    rw [read_take_of_send layout rfl, truncated_of_send]
    by_cases none : sent = 0
    · rw [if_pos none, none]
      rfl
    · have length : (s.outputQuantities.take sent).length = sent :=
        List.length_take_of_le (Nat.le_of_lt some)
      have accepted := Rule.outputQuantities_eq_ok_iff.mpr
        ⟨rfl, show 1 ≤ (s.outputQuantities.take sent).length by omega, by omega⟩
      rw [if_neg none, accepted]
      rfl

/-- Without its last fields no message is read, unless it is a send that keeps some quantities. -/
theorem truncated_eq_ok (layout : message.Layout fields) {count : Nat}
    (fewer : count < fields.length) {other : Message} (h : message.truncated count = .ok other) :
    ∃ s sent, message.action = .send s ∧ 0 < sent ∧ sent < s.outputQuantities.length ∧
      other = ⟨message.tokenType, .send ⟨s.tokenId, s.outputQuantities.take sent⟩⟩ := by
  cases found : message.transactionType.schema[count]? with
  | some name =>
    rw [truncated, found] at h
    cases h
  | none =>
    obtain ⟨s, sent, sends, rfl, some⟩ := exists_sent layout fewer found
    obtain ⟨tokenType, action⟩ := message
    obtain rfl : action = .send s := sends
    rw [truncated_of_send] at h
    split at h
    next => cases h
    next positive =>
      cases h
      exact ⟨s, sent, rfl, Nat.pos_of_ne_zero positive, some, rfl⟩

/-- A script that ends before its marker does is no token message. -/
theorem ofScript_of_prefix_marker {marker cut : Bytes} (mem : marker ∈ markers)
    (before : cut <+: marker) (shorter : cut ≠ marker) :
    ∃ detail, ofScript cut = .error (.notSlp detail) := by
  have unmarked : ¬ ∃ start body, Script.Marked cut start body := by
    intro marked
    obtain ⟨_, body, marked⟩ := marked
    obtain ⟨marker', mem', _, rfl⟩ := Script.marked_iff.mp marked
    obtain ⟨rest, eq⟩ := before
    obtain ⟨spelling, spelled, rfl⟩ := mem_markers_iff.mp mem
    obtain ⟨spelling', spelled', rfl⟩ := mem_markers_iff.mp mem'
    have same : spelling' ++ (body ++ rest) = spelling ++ [] := by simpa using eq
    obtain ⟨_, rfl, nothing⟩ := spelled'.append_inj spelled same
    exact shorter (by rw [(List.append_eq_nil_iff.mp nothing).1, List.append_nil])
  have refused {e : DecodeError} (h : Script.fields cut = .error e) : ofScript cut = .error e := by
    rw [ofScript, h]
    rfl
  rcases Script.fields_of_not_marked unmarked with h | h
  · exact ⟨_, refused h⟩
  · exact ⟨_, refused h⟩

/-- A script that ends inside a push after its marker is malformed. -/
theorem ofScript_of_prefix_push {marker pushed part data spelling : Bytes} {fields : List Bytes}
    (mem : marker ∈ markers) (pushes : Script.Pushes fields pushed)
    (spelled : Script.Spelling data spelling) (before : part <+: spelling)
    (shorter : part ≠ spelling) (nonempty : part ≠ []) :
    ∃ detail, ofScript (marker ++ (pushed ++ part)) = .error (.malformedScript detail) := by
  refine (exists_malformed_iff mem (pushed ++ part)).mpr fun complete => ?_
  obtain ⟨all, complete⟩ := complete
  obtain ⟨others, _, rest⟩ := pushes.of_append complete
  exact spelled.not_beginsPush before shorter (rest.beginsPush nonempty)

/-- A script that ends right after some of its pushes is read by their fields. -/
theorem ofScript_of_pushed {marker pushed : Bytes} {fields : List Bytes} (mem : marker ∈ markers)
    (pushes : Script.Pushes fields pushed) : ofScript (marker ++ pushed) = (read.on fields).1 := by
  have marked : Script.Marked (marker ++ pushed) marker.length pushed :=
    Script.marked_iff.mpr ⟨marker, mem, rfl, rfl⟩
  rw [ofScript, Script.fields_eq_ok_iff.mpr ⟨_, _, marked, pushes⟩]
  rfl

/-- A script of a message that is cut short is no token message if it ends before its marker does,
malformed if it ends inside a later push, and else it misses a field by its name; only a send that
is cut between two quantities still holds a message, with the quantities before the cut. -/
theorem ofScript_of_cut_short {script cut : Bytes} {message : Message}
    (h : ofScript script = .ok message) (before : cut <+: script) (shorter : cut ≠ script) :
    (∃ marker ∈ markers, ∃ fields spellings, message.Layout fields ∧
      List.Forall₂ Script.Spelling fields spellings ∧ script = marker ++ spellings.flatten ∧
      (cut <+: marker ∧ cut ≠ marker ∧ (∃ detail, ofScript cut = .error (.notSlp detail)) ∨
        ∃ count next part, spellings[count]? = some next ∧
          cut = marker ++ ((spellings.take count).flatten ++ part) ∧ part <+: next ∧ part ≠ next ∧
          (part ≠ [] → ∃ detail, ofScript cut = .error (.malformedScript detail)) ∧
          (part = [] → ofScript cut = message.truncated count))) ∧
    ∀ other, ofScript cut = .ok other →
      ∃ s sent, message.action = .send s ∧ 0 < sent ∧ sent < s.outputQuantities.length ∧
        other = ⟨message.tokenType, .send ⟨s.tokenId, s.outputQuantities.take sent⟩⟩ := by
  obtain ⟨valid, fields, layout, found⟩ := ofScript_eq_ok_iff.mp h
  obtain ⟨start, body, marked, pushes⟩ := Script.fields_eq_ok_iff.mp found
  obtain ⟨marker, mem, _, rfl⟩ := Script.marked_iff.mp marked
  obtain ⟨spellings, spelled, rfl⟩ := Script.pushes_iff_spellings.mp pushes
  -- The cut is inside the marker, or else inside one of the pushes or right before it.
  rcases Script.prefix_append_cases before with ⟨inside, other⟩ | ⟨more, rfl, begun⟩
  · have notSlp := ofScript_of_prefix_marker mem inside other
    refine ⟨⟨marker, mem, fields, spellings, layout, spelled, rfl, .inl ⟨inside, other, notSlp⟩⟩,
      fun _ accepted => ?_⟩
    obtain ⟨_, refused⟩ := notSlp
    rw [accepted] at refused
    cases refused
  · have shorter : more ≠ spellings.flatten := fun eq => shorter (by rw [eq])
    obtain ⟨count, next, part, found, rfl, begins, other⟩ := Script.prefix_flatten begun shorter
    obtain ⟨fewer, ⟨data, last⟩, earlier⟩ := Script.pushes_take spelled found
    have malformed (nonempty : part ≠ []) :=
      ofScript_of_prefix_push mem earlier last begins other nonempty
    have read (empty : part = []) :
        ofScript (marker ++ ((spellings.take count).flatten ++ part)) =
          message.truncated count := by
      rw [empty, List.append_nil, ofScript_of_pushed mem earlier]
      exact read_take valid layout fewer
    refine ⟨⟨marker, mem, fields, spellings, layout, spelled, rfl,
      .inr ⟨count, next, part, found, rfl, begins, other, malformed, read⟩⟩, fun _ accepted => ?_⟩
    by_cases empty : part = []
    · exact truncated_eq_ok layout fewer ((read empty).symm.trans accepted)
    · obtain ⟨_, refused⟩ := malformed empty
      rw [accepted] at refused
      cases refused

/-- A mint without its last byte holds no message. -/
theorem ofScript_of_cut_short_of_mint :
    let whole : Message := ⟨.fungible, .mint ⟨⟨List.replicate 32 0x11, rfl⟩, none, 7⟩⟩
    ofScript whole.toScript = .ok whole ∧ whole.toScript.dropLast <+: whole.toScript ∧
    whole.toScript.dropLast ≠ whole.toScript ∧
    ∀ other, ofScript whole.toScript.dropLast ≠ .ok other := by
  intro whole
  have writable : whole.Writable := by
    change 32 < 0x100000000
    decide
  have decodes : ofScript whole.toScript = .ok whole :=
    ofScript_eq_ok_iff.mpr ⟨⟨by decide, by simp⟩, _, whole.layout_fields,
      fields_toScript writable.length_lt⟩
  have before : whole.toScript.dropLast <+: whole.toScript := List.dropLast_prefix _
  have shorter : whole.toScript.dropLast ≠ whole.toScript := by decide
  refine ⟨decodes, before, shorter, fun other accepted => ?_⟩
  obtain ⟨_, _, sends, _⟩ := (ofScript_of_cut_short decodes before shorter).2 other accepted
  cases sends

end Message

end SimpleLedger
