import Mathlib.Data.List.Forall2
import SimpleLedger.Message.Reader

namespace SimpleLedger

variable {α β γ δ ι κ : Type}

/-- Two outcomes are the same error, or values that `R` relates. -/
inductive Agree (R : α → β → Prop) : Except DecodeError α → Except DecodeError β → Prop
  | ok {a : α} {b : β} : R a b → Agree R (.ok a) (.ok b)
  | error {e : DecodeError} : Agree R (.error e) (.error e)

namespace Agree

variable {R : α → β → Prop} {S : γ → δ → Prop} {P : ι → κ → Prop}

theorem refl {R : α → α → Prop} (h : ∀ a, R a a) (outcome : Except DecodeError α) :
    Agree R outcome outcome := by
  cases outcome with
  | ok a => exact .ok (h a)
  | error e => exact .error

theorem bind {x : Except DecodeError α} {y : Except DecodeError β} {f : α → Except DecodeError γ}
    {g : β → Except DecodeError δ} (h : Agree R x y) (hn : ∀ a b, R a b → Agree S (f a) (g b)) :
    Agree S (x >>= f) (y >>= g) := by
  cases h with
  | ok related => exact hn _ _ related
  | error => exact .error

theorem mapM {xs : List ι} {ys : List κ} {f : ι → Except DecodeError α}
    {g : κ → Except DecodeError β} (h : List.Forall₂ P xs ys)
    (hf : ∀ x y, P x y → Agree R (f x) (g y)) :
    Agree (List.Forall₂ R) (xs.mapM f) (ys.mapM g) := by
  induction h with
  | nil => exact .ok .nil
  | cons related _ ih =>
    rw [List.mapM_cons, List.mapM_cons]
    refine (hf _ _ related).bind fun a b first => ?_
    exact ih.bind fun as bs rest => .ok (.cons first rest)

theorem error_iff {x : Except DecodeError α} {y : Except DecodeError β} (h : Agree R x y)
    (e : DecodeError) : x = .error e ↔ y = .error e := by
  cases h with
  | ok => simp
  | error => simp

end Agree

/-- Fields that are equally many and equally long, and have the same bytes at every place that is
inspected. -/
structure Alike (inspected : Nat → Prop) (fields fields' : List Bytes) : Prop where
  lengths : List.Forall₂ (fun field field' => field.length = field'.length) fields fields'
  bytes : ∀ i, inspected i → fields[i]? = fields'[i]?

theorem Alike.length_eq {inspected : Nat → Prop} {fields fields' : List Bytes}
    (h : Alike inspected fields fields') : fields.length = fields'.length :=
  h.lengths.length_eq

theorem alike_cons_iff {inspected : Nat → Prop} {field field' : Bytes} {left left' : List Bytes} :
    Alike inspected (field :: left) (field' :: left') ↔
      field.length = field'.length ∧ (inspected 0 → field = field') ∧
        Alike (fun i => inspected (i + 1)) left left' := by
  constructor
  · intro h
    obtain ⟨first, rest⟩ := List.forall₂_cons.mp h.lengths
    refine ⟨first, fun seen => ?_, rest, fun i seen => ?_⟩
    · exact Option.some.inj (h.bytes 0 seen)
    · exact h.bytes (i + 1) seen
  · intro h
    obtain ⟨first, same, rest⟩ := h
    refine ⟨.cons first rest.lengths, fun i seen => ?_⟩
    cases i with
    | zero =>
      rw [same seen]
      rfl
    | succ i => exact rest.bytes i seen

namespace FieldReader

/-- Two runs of readers end in the same error, or in values that `R` relates, and leave fields that
`Q` relates. -/
inductive Parallel (R : α → β → Prop) (Q : List Bytes → List Bytes → Prop) :
    Except DecodeError α × List Bytes → Except DecodeError β × List Bytes → Prop
  | ok {a : α} {b : β} {left left' : List Bytes} : R a b → Q left left' →
    Parallel R Q (.ok a, left) (.ok b, left')
  | error {e : DecodeError} {left left' : List Bytes} :
    Parallel R Q (.error e, left) (.error e, left')

/-- From any fields that `P` relates, two readers run in parallel. -/
def Agree (P : List Bytes → List Bytes → Prop) (R : α → β → Prop)
    (Q : List Bytes → List Bytes → Prop) (reader : FieldReader α) (reader' : FieldReader β) :
    Prop :=
  ∀ fields fields', P fields fields' → Parallel R Q (reader.on fields) (reader'.on fields')

variable {P M Q : List Bytes → List Bytes → Prop} {R : α → β → Prop} {S : γ → δ → Prop}

theorem Parallel.fst {x : Except DecodeError α × List Bytes} {y : Except DecodeError β × List Bytes}
    (h : Parallel R Q x y) : SimpleLedger.Agree R x.1 y.1 := by
  cases h with
  | ok related => exact .ok related
  | error => exact .error

theorem Parallel.weaken {x : Except DecodeError α × List Bytes}
    {y : Except DecodeError β × List Bytes} {Q' : List Bytes → List Bytes → Prop}
    (h : Parallel R Q x y) (weaker : ∀ left left', Q left left' → Q' left left') :
    Parallel R Q' x y := by
  cases h with
  | ok values others => exact .ok values (weaker _ _ others)
  | error => exact .error

theorem Agree.weaken {reader : FieldReader α} {reader' : FieldReader β}
    {Q' : List Bytes → List Bytes → Prop} (h : Agree P R Q reader reader')
    (weaker : ∀ left left', Q left left' → Q' left left') : Agree P R Q' reader reader' :=
  fun fields fields' related => (h fields fields' related).weaken weaker

theorem agree_pure {a : α} {b : β} (h : R a b) :
    Agree P R P (pure a : FieldReader α) (pure b : FieldReader β) :=
  fun _ _ related => .ok h related

theorem Agree.bind {reader : FieldReader α} {reader' : FieldReader β} {next : α → FieldReader γ}
    {next' : β → FieldReader δ} (h : Agree P R M reader reader')
    (hn : ∀ a b, R a b → Agree M S Q (next a) (next' b)) :
    Agree P S Q (reader >>= next) (reader' >>= next') := by
  intro fields fields' related
  have first := h fields fields' related
  rw [on_bind, on_bind]
  cases run : reader.on fields with
  | mk outcome left =>
    cases run' : reader'.on fields' with
    | mk outcome' left' =>
      rw [run, run'] at first
      cases first with
      | ok values others => exact hn _ _ values _ _ others
      | error => exact .error

theorem Agree.map {reader : FieldReader α} {reader' : FieldReader β} {f : α → γ} {g : β → δ}
    (h : Agree P R Q reader reader') (hf : ∀ a b, R a b → S (f a) (g b)) :
    Agree P S Q (f <$> reader) (g <$> reader') := by
  rw [← bind_pure_comp, ← bind_pure_comp]
  exact h.bind fun a b related => agree_pure (hf a b related)

theorem agree_check {outcome : Except DecodeError α} {outcome' : Except DecodeError β}
    (h : SimpleLedger.Agree R outcome outcome') : Agree P R P (check outcome) (check outcome') := by
  intro fields fields' related
  rw [on_check, on_check]
  cases h with
  | ok values => exact .ok values related
  | error => exact .error

/-- What two runs take for a field is as long, and it is the same where the field is inspected. -/
theorem agree_next (name : String) (inspected : Nat → Prop) :
    Agree (Alike inspected)
      (fun field field' => field.length = field'.length ∧ (inspected 0 → field = field'))
      (Alike fun i => inspected (i + 1)) (next name) (next name) := by
  intro fields fields' related
  cases fields with
  | nil =>
    obtain rfl := List.forall₂_nil_left_iff.mp related.lengths
    exact .error
  | cons field left =>
    obtain ⟨field', left', _, _, rfl⟩ := List.forall₂_cons_left_iff.mp related.lengths
    obtain ⟨length, same, rest⟩ := alike_cons_iff.mp related
    exact .ok ⟨length, same⟩ rest

theorem agree_nextBy {inspected : Nat → Prop} (name : String) {rule : Bytes → Except DecodeError α}
    {R : α → α → Prop} (h : ∀ field field', field.length = field'.length →
      (inspected 0 → field = field') → SimpleLedger.Agree R (rule field) (rule field')) :
    Agree (Alike inspected) R (Alike fun i => inspected (i + 1)) (nextBy name rule)
      (nextBy name rule) :=
  (agree_next name inspected).bind fun field field' alike =>
    agree_check (h field field' alike.1 alike.2)

theorem agree_rest : Agree P P (fun left left' => left = [] ∧ left' = []) rest rest :=
  fun _ _ related => .ok related ⟨rfl, rfl⟩

theorem agree_finish {transactionType : String}
    (h : ∀ fields fields', P fields fields' → fields.length = fields'.length) :
    Agree P (fun _ _ => True) P (finish transactionType) (finish transactionType) := by
  intro fields fields' related
  have length := h fields fields' related
  cases fields with
  | nil =>
    obtain rfl := List.length_eq_zero_iff.mp length.symm
    exact .ok trivial related
  | cons field left =>
    obtain ⟨field', left', rfl⟩ := List.exists_cons_of_length_eq_add_one length.symm
    rw [on_finish_cons, on_finish_cons, Nat.succ.inj length]
    exact .error

end FieldReader

end SimpleLedger
