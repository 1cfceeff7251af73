import SimpleLedger.Bytes
import SimpleLedger.Message.Error

namespace SimpleLedger

/-- A reader of fields: what it makes of them, and the fields that it leaves. -/
abbrev FieldReader := ExceptT DecodeError (StateM (List Bytes))

namespace FieldReader

def on {α : Type} (reader : FieldReader α) (fields : List Bytes) :
    Except DecodeError α × List Bytes :=
  (reader.run).run fields

/-- Takes the next field; without one, the field is missing by its name. -/
def next (name : String) : FieldReader Bytes :=
  ExceptT.mk fun
    | [] => (.error (.missingField name), [])
    | field :: rest => (.ok field, rest)

/-- Takes all the fields there are. -/
def rest : FieldReader (List Bytes) :=
  ExceptT.mk fun fields => (.ok fields, [])

/-- Fails unless every field has been taken. -/
def finish (transactionType : String) : FieldReader Unit :=
  ExceptT.mk fun
    | [] => (.ok (), [])
    | field :: rest => (.error (.trailingData transactionType (rest.length + 1)), field :: rest)

/-- Lets the outcome of a rule stand as the reader's, and takes no field. -/
def check {α : Type} (outcome : Except DecodeError α) : FieldReader α :=
  ExceptT.mk fun fields => (outcome, fields)

/-- Takes the next field and applies a rule to it. -/
def nextBy {α : Type} (name : String) (rule : Bytes → Except DecodeError α) : FieldReader α := do
  let field ← next name
  check (rule field)

section Run

variable {α β : Type}

@[simp] theorem on_pure (a : α) (fields : List Bytes) :
    (pure a : FieldReader α).on fields = (.ok a, fields) :=
  rfl

theorem on_bind (reader : FieldReader α) (next : α → FieldReader β) (fields : List Bytes) :
    (reader >>= next).on fields =
      match reader.on fields with
      | (.ok a, left) => (next a).on left
      | (.error e, left) => (.error e, left) := by
  have continued : (reader >>= next).on fields =
      ExceptT.bindCont next (reader.on fields).1 (reader.on fields).2 := rfl
  rw [continued]
  cases reader.on fields with
  | mk outcome left => cases outcome <;> rfl

theorem on_map (f : α → β) (reader : FieldReader α) (fields : List Bytes) :
    (f <$> reader).on fields = ((reader.on fields).1.map f, (reader.on fields).2) := by
  rw [← bind_pure_comp, on_bind]
  cases reader.on fields with
  | mk outcome left => cases outcome <;> rfl

@[simp] theorem on_next_nil (name : String) :
    (next name).on [] = (.error (.missingField name), []) :=
  rfl

@[simp] theorem on_next_cons (name : String) (field : Bytes) (left : List Bytes) :
    (next name).on (field :: left) = (.ok field, left) :=
  rfl

@[simp] theorem on_rest (fields : List Bytes) : rest.on fields = (.ok fields, []) :=
  rfl

@[simp] theorem on_check (outcome : Except DecodeError α) (fields : List Bytes) :
    (check outcome).on fields = (outcome, fields) :=
  rfl

@[simp] theorem on_finish_nil (transactionType : String) :
    (finish transactionType).on [] = (.ok (), []) :=
  rfl

@[simp] theorem on_finish_cons (transactionType : String) (field : Bytes) (left : List Bytes) :
    (finish transactionType).on (field :: left) =
      (.error (.trailingData transactionType (left.length + 1)), field :: left) :=
  rfl

@[simp] theorem on_nextBy_nil (name : String) (rule : Bytes → Except DecodeError α) :
    (nextBy name rule).on [] = (.error (.missingField name), []) :=
  rfl

@[simp] theorem on_nextBy_cons (name : String) (rule : Bytes → Except DecodeError α) (field : Bytes)
    (left : List Bytes) : (nextBy name rule).on (field :: left) = (rule field, left) :=
  rfl

theorem on_bind_eq_ok_iff {reader : FieldReader α} {next : α → FieldReader β} {b : β}
    {fields left : List Bytes} :
    (reader >>= next).on fields = (.ok b, left) ↔
      ∃ a between, reader.on fields = (.ok a, between) ∧ (next a).on between = (.ok b, left) := by
  rw [on_bind]
  cases reader.on fields with
  | mk outcome between =>
    cases outcome with
    | ok a =>
      refine ⟨fun h => ⟨a, between, rfl, h⟩, ?_⟩
      intro h
      obtain ⟨_, _, h, continued⟩ := h
      cases h
      exact continued
    | error e => simp

theorem on_map_eq_ok_iff {f : α → β} {reader : FieldReader α} {b : β} {fields left : List Bytes} :
    (f <$> reader).on fields = (.ok b, left) ↔ ∃ a, reader.on fields = (.ok a, left) ∧ f a = b := by
  rw [← bind_pure_comp, on_bind_eq_ok_iff]
  simp only [on_pure, Prod.mk.injEq, Except.ok.injEq]
  exact ⟨fun ⟨a, _, h, eq, rfl⟩ => ⟨a, h, eq⟩, fun ⟨a, h, eq⟩ => ⟨a, left, h, eq, rfl⟩⟩

theorem on_next_eq_ok_iff {name : String} {field : Bytes} {fields left : List Bytes} :
    (next name).on fields = (.ok field, left) ↔ fields = field :: left := by
  cases fields <;> simp

theorem on_nextBy_eq_ok_iff {name : String} {rule : Bytes → Except DecodeError α} {a : α}
    {fields left : List Bytes} :
    (nextBy name rule).on fields = (.ok a, left) ↔
      ∃ field, rule field = .ok a ∧ fields = field :: left := by
  cases fields with
  | nil => simp
  | cons first others => simp [and_comm, and_assoc, eq_comm]

theorem on_finish_eq_ok_iff {transactionType : String} {done : Unit} {fields left : List Bytes} :
    (finish transactionType).on fields = (.ok done, left) ↔ fields = [] ∧ left = [] := by
  cases fields <;> simp [eq_comm]

end Run

end FieldReader

end SimpleLedger
