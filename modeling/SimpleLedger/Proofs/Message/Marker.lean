import SimpleLedger.Proofs.Message.Marked
import SimpleLedger.Proofs.Message.Reason

namespace SimpleLedger

/-- What a script that holds a message can begin with: the opcode, and a push of the id. -/
def markers : List Bytes :=
  [[0x6a, 0x04, 0x53, 0x4c, 0x50, 0x00],
    [0x6a, 0x4c, 0x04, 0x53, 0x4c, 0x50, 0x00],
    [0x6a, 0x4d, 0x04, 0x00, 0x53, 0x4c, 0x50, 0x00],
    [0x6a, 0x4e, 0x04, 0x00, 0x00, 0x00, 0x53, 0x4c, 0x50, 0x00]]

theorem Script.header_four_iff {header : Bytes} :
    Header 4 header ↔ header ∈ ([[0x04], [0x4c, 0x04], [0x4d, 0x04, 0x00],
      [0x4e, 0x04, 0x00, 0x00, 0x00]] : List Bytes) := by
  constructor
  · intro h
    cases h <;> decide
  · intro h
    simp only [List.mem_cons, List.not_mem_nil, or_false] at h
    rcases h with rfl | rfl | rfl | rfl
    · exact .direct (by decide) (by decide)
    · exact .one (by decide)
    · exact .two (by decide)
    · exact .four (by decide)

theorem mem_markers_iff {marker : Bytes} :
    marker ∈ markers ↔ ∃ spelling, Script.Spelling lokadId spelling ∧
      marker = returnOpcode :: spelling := by
  have four : lokadId.length = 4 := rfl
  have made : markers = ([[0x04], [0x4c, 0x04], [0x4d, 0x04, 0x00],
      [0x4e, 0x04, 0x00, 0x00, 0x00]] : List Bytes).map
        (fun header => returnOpcode :: (header ++ lokadId)) := rfl
  rw [made, List.mem_map]
  constructor
  · intro h
    obtain ⟨header, mem, rfl⟩ := h
    exact ⟨_, ⟨header, four ▸ Script.header_four_iff.mpr mem, rfl⟩, rfl⟩
  · intro h
    obtain ⟨_, ⟨header, announced, rfl⟩, rfl⟩ := h
    exact ⟨header, Script.header_four_iff.mp (four ▸ announced), rfl⟩

theorem Script.marked_iff {script body : Bytes} {start : Nat} :
    Script.Marked script start body ↔
      ∃ marker ∈ markers, start = marker.length ∧ script = marker ++ body := by
  constructor
  · intro h
    obtain ⟨spelling, spelled, rfl, rfl⟩ := h
    refine ⟨returnOpcode :: spelling, mem_markers_iff.mpr ⟨spelling, spelled, rfl⟩, ?_, rfl⟩
    rw [List.length_cons, Nat.add_comm]
  · intro h
    obtain ⟨marker, mem, rfl, rfl⟩ := h
    obtain ⟨spelling, spelled, rfl⟩ := mem_markers_iff.mp mem
    exact ⟨spelling, spelled, by rw [List.length_cons, Nat.add_comm], rfl⟩

/-- Reading the fields of a message never says that there is no message. -/
theorem Message.ofScript_eq_error_iff {script : Bytes} {e : DecodeError} (h : ¬ e.OfFields) :
    ofScript script = .error e ↔ Script.fields script = .error e := by
  rw [ofScript]
  cases Script.fields script with
  | ok fields =>
    constructor
    · intro refused
      exact absurd (Message.read_blames fields e refused).ofFields h
    · intro refused
      cases refused
  | error e' =>
    constructor <;>
    · intro refused
      cases refused
      rfl

theorem Script.Token.field_blames (token : Script.Token) :
    Blames (fun e => ∃ detail, e = .malformedScript detail) token.field := by
  unfold Script.Token.field
  split
  next => exact blames_ok
  next => exact blames_error ⟨_, rfl⟩
  next => exact blames_error ⟨_, rfl⟩

/-- After a marker, the only fault that a script can have is that it is malformed. -/
theorem Script.Marked.malformed {script body : Bytes} {start : Nat} (h : Marked script start body)
    {e : DecodeError} (refused : Script.fields script = .error e) :
    ∃ detail, e = .malformedScript detail := by
  rw [h.fields_eq] at refused
  exact blames_mapM Script.Token.field_blames e refused

/-- A script is refused as no token message if and only if it does not begin with a marker,
whatever else is in it. -/
theorem Message.ofScript_notSlp_iff (script : Bytes) :
    (∃ detail, ofScript script = .error (.notSlp detail)) ↔
      ∀ marker ∈ markers, ¬ marker <+: script := by
  have decided (detail : String) : ofScript script = .error (.notSlp detail) ↔
      Script.fields script = .error (.notSlp detail) := ofScript_eq_error_iff id
  simp only [decided]
  constructor
  · intro h marker mem before
    obtain ⟨detail, refused⟩ := h
    obtain ⟨body, eq⟩ := before
    have marked : Script.Marked script marker.length body :=
      Script.marked_iff.mpr ⟨marker, mem, rfl, eq.symm⟩
    obtain ⟨_, other⟩ := marked.malformed refused
    cases other
  · intro h
    have unmarked : ¬ ∃ start body, Script.Marked script start body := by
      intro marked
      obtain ⟨_, body, marked⟩ := marked
      obtain ⟨marker, mem, _, eq⟩ := Script.marked_iff.mp marked
      exact h marker mem ⟨body, eq.symm⟩
    rcases Script.fields_of_not_marked unmarked with refused | refused
    · exact ⟨_, refused⟩
    · exact ⟨_, refused⟩

end SimpleLedger
