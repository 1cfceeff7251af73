import SimpleLedger.Message.Cursor
import SimpleLedger.Message.Field

namespace SimpleLedger.FieldCursor

/-- A call that takes fields. -/
inductive Call where
  | next (name : String)
  | rest
deriving DecidableEq

/-- What a call gives, and the cursor after it. -/
def call? (cursor : FieldCursor) : Call → Option (Except DecodeError (List Bytes) × FieldCursor)
  | .next name => some ((cursor.next name).1.map ([·]), (cursor.next name).2)
  | .rest => cursor.rest?.map fun (fields, after) => (.ok fields, after)

/-- What calls give, one after the other, and the cursor after all of them. -/
def calls? (cursor : FieldCursor) :
    List Call → Option (List (Except DecodeError (List Bytes)) × FieldCursor)
  | [] => some ([], cursor)
  | call :: calls => do
    let (answer, after) ← cursor.call? call
    let (answers, last) ← after.calls? calls
    some (answer :: answers, last)

/-- The fields that some answers give, in the order of the calls. -/
def given (answers : List (Except DecodeError (List Bytes))) : List Bytes :=
  answers.flatMap fun answer => answer.toOption.getD []

/-- The fields that have not been taken. -/
def left (cursor : FieldCursor) : List Bytes :=
  cursor.fields.drop cursor.position

/-- The position is at a field or right after the last one. -/
def Inside (cursor : FieldCursor) : Prop :=
  cursor.position ≤ cursor.fields.length

variable {cursor : FieldCursor}

theorem length_left : cursor.left.length = cursor.fields.length - cursor.position :=
  List.length_drop

theorem next_of_left_nil (h : cursor.left = []) (name : String) :
    cursor.next name = (.error (.missingField name), cursor) := by
  have past : cursor.fields[cursor.position]? = none :=
    List.getElem?_eq_none (List.drop_eq_nil_iff.mp h)
  rw [next, past]

theorem next_of_left_cons {field : Bytes} {others : List Bytes} (h : cursor.left = field :: others)
    (name : String) :
    cursor.next name = (.ok field, { cursor with position := cursor.position + 1 }) ∧
      (cursor.next name).2.left = others := by
  have found : cursor.fields[cursor.position]? = some field := by
    rw [← List.head?_drop, ← left, h]
    rfl
  have taken : cursor.next name = (.ok field, { cursor with position := cursor.position + 1 }) := by
    rw [next, found]
  refine ⟨taken, ?_⟩
  rw [taken, left, ← List.drop_drop, ← left, h]
  rfl

theorem Inside.remaining?_eq (h : cursor.Inside) : cursor.remaining? = some cursor.left.length := by
  have bound : cursor.position ≤ cursor.fields.length := h
  rw [remaining?, if_pos bound, length_left]

theorem Inside.rest?_eq (h : cursor.Inside) :
    cursor.rest? = some (cursor.left, { cursor with position := cursor.fields.length }) := by
  have bound : cursor.position ≤ cursor.fields.length := h
  rw [rest?, if_pos bound, left]

theorem Inside.finish?_eq (h : cursor.Inside) (transactionType : String) :
    cursor.finish? transactionType =
      some (if cursor.left = [] then .ok ()
        else .error (.trailingData transactionType cursor.left.length)) := by
  rw [finish?, h.remaining?_eq, Option.map_some]
  simp only [List.length_eq_zero_iff]

/-- A call moves fields from those that are left to those that are given, and loses none. -/
theorem Inside.call? (h : cursor.Inside) (call : Call) : ∃ answer after,
    cursor.call? call = some (answer, after) ∧ after.Inside ∧ after.fields = cursor.fields ∧
      answer.toOption.getD [] ++ after.left = cursor.left := by
  cases call with
  | next name =>
    cases hl : cursor.left with
    | nil =>
      refine ⟨_, _, rfl, ?_⟩
      rw [next_of_left_nil hl]
      exact ⟨h, rfl, hl⟩
    | cons field others =>
      obtain ⟨taken, following⟩ := next_of_left_cons hl name
      refine ⟨_, _, rfl, ?_⟩
      have counted := congrArg List.length hl
      rw [length_left, List.length_cons] at counted
      rw [following, taken]
      refine ⟨?_, rfl, rfl⟩
      simp only [Inside]
      omega
  | rest =>
    refine ⟨.ok cursor.left, { cursor with position := cursor.fields.length }, ?_, Nat.le_refl _,
      rfl, ?_⟩
    · rw [FieldCursor.call?, h.rest?_eq]
      rfl
    · simp [left, Except.toOption]

theorem Inside.calls? (h : cursor.Inside) (calls : List Call) : ∃ answers last,
    cursor.calls? calls = some (answers, last) ∧ last.Inside ∧ last.fields = cursor.fields ∧
      answers.length = calls.length ∧ given answers ++ last.left = cursor.left := by
  induction calls generalizing cursor with
  | nil => exact ⟨[], cursor, rfl, h, rfl, rfl, rfl⟩
  | cons call calls ih =>
    obtain ⟨answer, after, called, inside, same, kept⟩ := h.call? call
    obtain ⟨answers, last, followed, insideLast, sameLast, count, keptLast⟩ := ih inside
    refine ⟨answer :: answers, last, ?_, insideLast, sameLast.trans same, congrArg (· + 1) count, ?_⟩
    · simp only [FieldCursor.calls?, called, followed, Option.bind_eq_bind, Option.bind_some]
    · rw [given, List.flatMap_cons, List.append_assoc, ← given, keptLast, kept]

theorem next_eq_error_iff {name : String} {e : DecodeError} :
    (cursor.next name).1 = .error e ↔ cursor.left = [] ∧ e = .missingField name := by
  cases hl : cursor.left with
  | nil => simp [next_of_left_nil hl, eq_comm]
  | cons field others => simp [(next_of_left_cons hl name).1]

/-- What can be told of a cursor over some fields after calls that gave some answers. -/
structure Accounts (fields : List Bytes) (answers : List (Except DecodeError (List Bytes)))
    (last : FieldCursor) : Prop where
  /-- No field is lost or given twice, and all are given in order. -/
  kept : given answers ++ last.left = fields
  counted : last.remaining? = some last.left.length
  missing : ∀ name e, (last.next name).1 = .error e ↔ last.left = [] ∧ e = .missingField name
  unchanged : ∀ name e, (last.next name).1 = .error e → (last.next name).2 = last
  finished : ∀ transactionType,
    last.finish? transactionType = some (.ok ()) ↔ given answers = fields
  refused : ∀ transactionType, given answers ≠ fields → last.finish? transactionType =
    some (.error (.trailingData transactionType (fields.length - (given answers).length)))

theorem Inside.accounts {fields : List Bytes} {answers : List (Except DecodeError (List Bytes))}
    (h : cursor.Inside) (kept : given answers ++ cursor.left = fields) :
    Accounts fields answers cursor := by
  have whole : given answers = fields ↔ cursor.left = [] := by
    rw [← kept, List.self_eq_append_right]
  have number : fields.length - (given answers).length = cursor.left.length := by
    rw [← kept, List.length_append, Nat.add_sub_cancel_left]
  refine ⟨kept, h.remaining?_eq, fun _ _ => next_eq_error_iff, fun name e failed => ?_,
    fun transactionType => ?_, fun transactionType some => ?_⟩
  · rw [next_of_left_nil (next_eq_error_iff.mp failed).1]
  · rw [whole, h.finish?_eq]
    by_cases done : cursor.left = [] <;> simp [done]
  · rw [h.finish?_eq, if_neg (mt whole.mpr some), number]

/-- The readers of a message, on the fields that a cursor has left, do what the cursor does. -/
structure Follows (cursor : FieldCursor) : Prop where
  next : ∀ name, (FieldReader.next name).on cursor.left =
    ((cursor.next name).1, (cursor.next name).2.left)
  rest : ∃ after, cursor.rest? = some (cursor.left, after) ∧
    FieldReader.rest.on cursor.left = (.ok cursor.left, after.left)
  finish : ∀ transactionType, cursor.finish? transactionType =
    some ((FieldReader.finish transactionType).on cursor.left).1

theorem Inside.follows (h : cursor.Inside) : cursor.Follows := by
  refine ⟨fun name => ?_, ⟨_, h.rest?_eq, ?_⟩, fun transactionType => ?_⟩
  · cases hl : cursor.left with
    | nil => rw [next_of_left_nil hl, hl, FieldReader.on_next_nil]
    | cons field others =>
      obtain ⟨taken, following⟩ := next_of_left_cons hl name
      rw [following, taken, FieldReader.on_next_cons]
  · rw [FieldReader.on_rest, left, left, List.drop_length]
  · rw [h.finish?_eq]
    cases cursor.left <;> rfl

/-- Every call is answered, whatever calls were made before it. The fields given and those left are
all the fields in order, and the number of those left is known; a field is missing exactly when none
is left, which changes nothing; and to finish is refused exactly when some are left, by their
number. The readers of messages take fields in the same way. -/
theorem calls_give_fields_once (fields : List Bytes) (calls : List Call) : ∃ answers last,
    (ofFields fields).calls? calls = some (answers, last) ∧ answers.length = calls.length ∧
      Accounts fields answers last ∧ last.Follows := by
  have start : (ofFields fields).Inside := Nat.zero_le _
  obtain ⟨answers, last, called, inside, -, count, kept⟩ := start.calls? calls
  exact ⟨answers, last, called, count, inside.accounts kept, inside.follows⟩

end SimpleLedger.FieldCursor
