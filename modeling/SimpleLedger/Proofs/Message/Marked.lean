import SimpleLedger.Message.Reader
import SimpleLedger.Proofs.Script.Reading

namespace SimpleLedger.Script

/-- The script begins with a marker that ends before `start`, where `body` begins. -/
def Marked (script : Bytes) (start : Nat) (body : Bytes) : Prop :=
  ∃ marker, Spelling lokadId marker ∧ start = 1 + marker.length ∧
    script = returnOpcode :: (marker ++ body)

theorem mapM_field_of_pushes {fields : List Bytes} {bytes : Bytes} (h : Pushes fields bytes)
    (start : Nat) : (tokensFrom start [] bytes).mapM Token.field = .ok fields := by
  induction h generalizing start with
  | nil => simp [tokensFrom_nil, pure, Except.pure]
  | @cons field spelling bytes fields spelled _ ih =>
    cases spelling with
    | nil => exact absurd rfl spelled.ne_nil
    | cons opcode spelling =>
      rw [List.cons_append, tokensFrom_cut (readToken_spelling spelled), List.mapM_cons, ih]
      rfl

theorem pushes_of_mapM_field {fields : List Bytes} {bytes : Bytes} {start : Nat}
    (h : (tokensFrom start [] bytes).mapM Token.field = .ok fields) : Pushes fields bytes := by
  induction start, bytes using tokens_induction generalizing fields with
  | nil start =>
    rw [tokensFrom_nil] at h
    cases h
    exact .nil
  | cut start bytes token rest cut first ih =>
    rw [first, List.mapM_cons] at h
    cases cut with
    | @push data spelling bytes rest spelled eq =>
      subst eq
      cases hr : (tokensFrom (start + spelling.length) [] rest).mapM Token.field with
      | error e => rw [hr] at h; cases h
      | ok others =>
        rw [hr] at h
        cases h
        exact .cons spelled (ih hr)
    | op => cases h
    | truncated => cases h
    | overrun => cases h

theorem mapM_field_eq_ok_iff {fields : List Bytes} {bytes : Bytes} (start : Nat) :
    (tokensFrom start [] bytes).mapM Token.field = .ok fields ↔ Pushes fields bytes :=
  ⟨pushes_of_mapM_field, fun h => mapM_field_of_pushes h start⟩

theorem Marked.fields_eq {script body : Bytes} {start : Nat} (h : Marked script start body) :
    fields script = (tokensFrom start [] body).mapM Token.field := by
  obtain ⟨marker, spelled, rfl, rfl⟩ := h
  cases marker with
  | nil => exact absurd rfl spelled.ne_nil
  | cons opcode marker =>
    have first : readToken 0 returnOpcode (opcode :: marker ++ body) =
        (⟨0, 1, .ok (.op returnOpcode)⟩, opcode :: marker ++ body) := readToken_bare rfl
    have second : readToken 1 opcode (marker ++ body) =
        (⟨1, 1 + (opcode :: marker).length, .ok (.push lokadId)⟩, body) :=
      readToken_spelling spelled
    rw [fields, tokens, tokensFrom_cut first, List.cons_append, tokensFrom_cut second]
    simp

/-- A script without the marker is refused as no token message, whatever else is in it. -/
theorem fields_of_not_marked {script : Bytes} (h : ¬∃ start body, Marked script start body) :
    fields script = .error fields.noReturn ∨ fields script = .error fields.noMarker := by
  unfold fields
  split
  next after first =>
    split
    next isReturn =>
      split
      next =>
        split
        next isLokad =>
          obtain ⟨afterReturn, cut, following⟩ := tokensFrom_eq_cons first
          cases cut
          obtain ⟨body, cut, _⟩ := tokensFrom_eq_cons following.symm
          cases cut with
          | push spelled eq =>
            subst isReturn isLokad eq
            exact absurd ⟨_, body, _, spelled, rfl, rfl⟩ h
        next => exact .inr rfl
      next => exact .inr rfl
    next => exact .inl rfl
  next => exact .inl rfl

theorem fields_eq_ok_iff {script : Bytes} {datas : List Bytes} :
    fields script = .ok datas ↔ ∃ start body, Marked script start body ∧ Pushes datas body := by
  constructor
  · intro h
    by_cases marked : ∃ start body, Marked script start body
    · obtain ⟨start, body, marked⟩ := marked
      rw [marked.fields_eq, mapM_field_eq_ok_iff] at h
      exact ⟨start, body, marked, h⟩
    · rcases fields_of_not_marked marked with eq | eq <;> rw [eq] at h <;> cases h
  · intro h
    obtain ⟨start, body, marked, pushes⟩ := h
    rw [marked.fields_eq]
    exact mapM_field_of_pushes pushes start

end SimpleLedger.Script
