import SimpleLedger.Proofs.Message.Malformed
import SimpleLedger.Proofs.Message.Written

namespace SimpleLedger

open FieldReader

/-- What reading gives when some fields follow those of a message. -/
def Message.appended (message : Message) (more : List Bytes) : Except DecodeError Message :=
  match message.action with
  | .genesis _ => .error (.trailingData "GENESIS" more.length)
  | .mint _ => .error (.trailingData "MINT" more.length)
  | .send s =>
    match more.find? fun field => field.length ≠ 8 with
    | some field => .error (.invalidQuantityEncoding "token_output_quantity" field.length)
    | none =>
      let count := s.outputQuantities.length + more.length
      if 19 < count then .error (.tooManyOutputs count)
      else
        let quantities := more.map fun field => UInt64.ofNat (Bytes.bigEndian field)
        .ok ⟨message.tokenType, .send ⟨s.tokenId, s.outputQuantities ++ quantities⟩⟩

/-- Of several quantities, the first that is not eight bytes long decides. -/
theorem mapM_quantity (name : String) (fields : List Bytes) :
    fields.mapM (Rule.quantity name) =
      match fields.find? fun field => field.length ≠ 8 with
      | some field => .error (.invalidQuantityEncoding name field.length)
      | none => .ok (fields.map fun field => UInt64.ofNat (Bytes.bigEndian field)) := by
  induction fields with
  | nil => rfl
  | cons field fields ih =>
    rw [List.mapM_cons, ih, Rule.quantity, List.find?_cons]
    by_cases eight : field.length = 8
    · simp only [eight, if_true, ne_eq, not_true_eq_false, decide_false]
      cases fields.find? fun field => field.length ≠ 8 <;> rfl
    · simp only [eight, if_false, ne_eq, not_false_eq_true, decide_true]
      rfl

theorem mapM_quantity_append (name : String) (quantities : List UInt64) (more : List Bytes) :
    (quantities.map quantityField ++ more).mapM (Rule.quantity name) =
      (quantities ++ ·) <$> more.mapM (Rule.quantity name) := by
  rw [List.mapM_append, mapM_quantity_fields]
  cases more.mapM (Rule.quantity name) <;> rfl

/-- The quantities that follow those of a send are read as if they were its own. -/
theorem Send.read_append (s : Send) (more : List Bytes) :
    Send.read.on ((Action.send s).fields ++ more) =
      ((more.mapM (Rule.quantity "token_output_quantity") >>= fun added =>
        Rule.outputQuantities (s.outputQuantities ++ added)).map (Send.mk s.tokenId), []) := by
  rw [Send.read, Action.fields, List.cons_append, on_nextBy_bind (Rule.tokenId_bytes s.tokenId),
    on_rest_bind, mapM_quantity_append, on_bind, on_check]
  cases more.mapM (Rule.quantity "token_output_quantity") with
  | error e => rfl
  | ok added =>
    change (check (Rule.outputQuantities (s.outputQuantities ++ added)) >>= _).on [] =
      ((Rule.outputQuantities (s.outputQuantities ++ added)).map (Send.mk s.tokenId), [])
    rw [on_bind, on_check]
    cases Rule.outputQuantities (s.outputQuantities ++ added) <;> rfl

namespace Message

variable {message : Message} {fields more : List Bytes}

/-- The token type and the tag are read the same whatever fields follow. -/
theorem read_layout_append (layout : message.Layout fields) (more : List Bytes) :
    read.on (fields ++ more) =
      (Action.read message.tokenType message.transactionType >>= fun action =>
        finish message.transactionType.name >>= fun _ =>
          pure ⟨message.tokenType, action⟩).on (message.action.fields ++ more) := by
  obtain ⟨code, spelled, rfl⟩ := layout_iff.mp layout
  have tag : Rule.transactionType message.transactionType.tag = .ok message.transactionType :=
    Rule.transactionType_eq_ok_iff.mpr rfl
  rw [read, List.cons_append, List.cons_append,
    on_nextBy_bind (Rule.tokenType_eq_ok_iff.mpr spelled), on_nextBy_bind tag]

/-- Fields that the action leaves are counted. -/
theorem read_append_of_left (layout : message.Layout fields) (nonempty : more ≠ [])
    (h : (Action.read message.tokenType message.transactionType).on
      (message.action.fields ++ more) = (.ok message.action, more)) :
    (read.on (fields ++ more)).1 =
      .error (.trailingData message.transactionType.name more.length) := by
  obtain ⟨first, others, rfl⟩ := List.exists_cons_of_ne_nil nonempty
  rw [read_layout_append layout, on_bind, h]
  rfl

theorem read_append_of_send {s : Send} (layout : message.Layout fields)
    (sends : message.action = .send s) (more : List Bytes) :
    (read.on (fields ++ more)).1 =
      (more.mapM (Rule.quantity "token_output_quantity") >>= fun added =>
        Rule.outputQuantities (s.outputQuantities ++ added)).map fun quantities =>
          ⟨message.tokenType, .send ⟨s.tokenId, quantities⟩⟩ := by
  rw [read_layout_append layout, on_bind, transactionType, sends, Action.transactionType,
    Action.read, on_map, Send.read_append]
  cases more.mapM (Rule.quantity "token_output_quantity") >>= fun added =>
    Rule.outputQuantities (s.outputQuantities ++ added) <;> rfl

theorem read_append (valid : message.Valid) (layout : message.Layout fields)
    (nonempty : more ≠ []) : (read.on (fields ++ more)).1 = message.appended more := by
  obtain ⟨tokenType, action⟩ := message
  cases action with
  | genesis g =>
    have left : (Action.read tokenType .genesis).on ((Action.genesis g).fields ++ more) =
        (.ok (.genesis g), more) :=
      on_map_eq_ok_iff.mpr ⟨g, Genesis.read_eq_ok_iff.mpr ⟨valid, rfl⟩, rfl⟩
    exact read_append_of_left layout nonempty left
  | mint m =>
    have left : (Action.read tokenType .mint).on ((Action.mint m).fields ++ more) =
        (.ok (.mint m), more) :=
      on_map_eq_ok_iff.mpr ⟨m, Mint.read_eq_ok_iff.mpr ⟨valid, rfl⟩, rfl⟩
    exact read_append_of_left layout nonempty left
  | send s =>
    have valid : s.Valid := valid
    rw [read_append_of_send layout rfl, appended, mapM_quantity]
    cases more.find? fun field => field.length ≠ 8 with
    | some field => rfl
    | none =>
      have some : (s.outputQuantities ++
          more.map fun field => UInt64.ofNat (Bytes.bigEndian field)).length ≠ 0 := by
        have := valid.nonempty
        rw [List.length_append]
        omega
      change (Rule.outputQuantities (s.outputQuantities ++
          more.map fun field => UInt64.ofNat (Bytes.bigEndian field))).map _ = _
      rw [Rule.outputQuantities, if_neg some, List.length_append, List.length_map]
      dsimp only
      split
      next => rfl
      next => rfl

end Message

theorem Script.Marked.append {script body : Bytes} {start : Nat} (h : Marked script start body)
    (rest : Bytes) : Marked (script ++ rest) start (body ++ rest) := by
  obtain ⟨marker, spelled, rfl, rfl⟩ := h
  exact ⟨marker, spelled, rfl, by rw [List.cons_append, List.append_assoc]⟩

/-- Bytes that follow the script of a message are never unnoticed: they make the script malformed
unless they are complete pushes, and then at least one, which counts as so many fields more. -/
theorem Message.ofScript_append {script rest : Bytes} {message : Message}
    (h : ofScript script = .ok message) (nonempty : rest ≠ []) :
    ((¬ ∃ more, Script.Pushes more rest) →
        ∃ detail, ofScript (script ++ rest) = .error (.malformedScript detail)) ∧
      ∀ more, Script.Pushes more rest →
        1 ≤ more.length ∧ ofScript (script ++ rest) = message.appended more := by
  obtain ⟨valid, fields, layout, found⟩ := ofScript_eq_ok_iff.mp h
  obtain ⟨start, body, marked, pushes⟩ := Script.fields_eq_ok_iff.mp found
  constructor
  · intro incomplete
    obtain ⟨marker, mem, _, rfl⟩ := Script.marked_iff.mp marked
    rw [List.append_assoc]
    refine (exists_malformed_iff mem (body ++ rest)).mpr fun complete => ?_
    obtain ⟨all, complete⟩ := complete
    obtain ⟨more, _, others⟩ := pushes.of_append complete
    exact incomplete ⟨more, others⟩
  · intro more others
    have some : more ≠ [] := by
      rintro rfl
      rcases others.eq_nil_or_cons with ⟨_, empty⟩ | ⟨_, _, _, _, eq, _⟩
      · exact nonempty empty
      · cases eq
    have all : Script.fields (script ++ rest) = .ok (fields ++ more) :=
      Script.fields_eq_ok_iff.mpr ⟨start, body ++ rest, marked.append rest, pushes.append others⟩
    refine ⟨List.length_pos_iff.mpr some, ?_⟩
    rw [ofScript, all]
    exact read_append valid layout some

/-- A twentieth quantity that follows a send of nineteen is noticed. -/
theorem Message.ofScript_append_of_full_send :
    let full : Message :=
      ⟨.nft1Group, .send ⟨⟨List.replicate 32 0x11, rfl⟩, List.replicate 19 0xff⟩⟩
    ofScript full.toScript = .ok full ∧ ([0x08, 0, 0, 0, 0, 0, 0, 0, 7] : Bytes) ≠ [] ∧
    ofScript (full.toScript ++ [0x08, 0, 0, 0, 0, 0, 0, 0, 7]) = .error (.tooManyOutputs 20) := by
  intro full
  have writable : full.Writable := by
    change 32 < 0x100000000
    decide
  have decodes : ofScript full.toScript = .ok full :=
    ofScript_eq_ok_iff.mpr ⟨⟨by decide, by decide⟩, _, full.layout_fields,
      fields_toScript writable.length_lt⟩
  have pushes : Script.Pushes [[0, 0, 0, 0, 0, 0, 0, 7]] [0x08, 0, 0, 0, 0, 0, 0, 0, 7] :=
    .cons ⟨[0x08], .direct (by decide) (by decide), rfl⟩ .nil
  exact ⟨decodes, by decide, ((ofScript_append decodes (by decide)).2 _ pushes).2⟩

end SimpleLedger
