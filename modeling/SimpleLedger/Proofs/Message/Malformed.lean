import Mathlib.Order.Bounds.Basic
import SimpleLedger.Proofs.Script.Boundary
import SimpleLedger.Proofs.Message.Marker
import SimpleLedger.Proofs.Message.Rule

namespace SimpleLedger

namespace Script

/-- Complete pushes lead from the end of `marker` up to the offset `p`, where a byte stands but no
complete push begins. -/
def Stalls (marker body : Bytes) (p : Nat) : Prop :=
  ∃ fields pushed rest, body = pushed ++ rest ∧ p = marker.length + pushed.length ∧
    Pushes fields pushed ∧ rest ≠ [] ∧ ¬ BeginsPush rest

/-- What is said of the bytes of a script from the offset `p` on: the byte there is no opcode of a
push, or its count of bytes breaks off, or the bytes that it counts do. -/
inductive Offence (script : Bytes) (p : Nat) : String → Prop
  | opcode {code : UInt8} {high low : Char} : script[p]? = some code →
    ¬ (0x01 ≤ code ∧ code ≤ 0x4e) →
    Text.IsLowerDigit high (code.toNat / 16) → Text.IsLowerDigit low (code.toNat % 16) →
    Offence script p s!"opcode 0x{high}{low} at offset {p} is not permitted in an SLP message"
  | truncated {code : UInt8} {width : Nat} : script[p]? = some code →
    (code, width) ∈ [((0x4c : UInt8), 1), (0x4d, 2), (0x4e, 4)] →
    script.length - (p + 1) < width →
    Offence script p s!"truncated {width}-byte pushdata length at offset {p + 1}"
  | overrun {length q remaining : Nat} {header : Bytes} : Header length header →
    header <+: script.drop p → q = p + header.length → remaining = script.length - q →
    remaining < length →
    Offence script p
      s!"push of {length} bytes at offset {q} exceeds remaining {remaining} bytes"

theorem opcode_text {code : UInt8} {high low : Char}
    (isHigh : Text.IsLowerDigit high (code.toNat / 16))
    (isLow : Text.IsLowerDigit low (code.toNat % 16)) (p : Nat) :
    s!"opcode 0x{high}{low} at offset {p} is not permitted in an SLP message" =
      s!"opcode {Rule.hexCode code.toNat} at offset {p} is not permitted in an SLP message" := by
  have byte : "opcode 0x" ++ String.singleton high ++ String.singleton low =
      "opcode " ++ Rule.hexCode code.toNat := by
    rw [Rule.hexCode_byte isHigh isLow, ← String.toList_inj]
    simp
  exact congrArg (· ++ " at offset " ++ toString p ++ " is not permitted in an SLP message") byte

/-- Wherever no complete push begins there is something to say of the byte that stands there. -/
theorem exists_offence {opcode : UInt8} {bytes : Bytes} (before : Bytes)
    (stuck : ¬ BeginsPush (opcode :: bytes)) :
    ∃ detail, Offence (before ++ opcode :: bytes) before.length detail := by
  rcases header_cases opcode bytes with
    ⟨length, count, rest, header, rfl⟩ | bare | ⟨width, counted, short⟩
  · have short : rest.length < length := by
      by_contra enough
      have full : (rest.take length).length = length := List.length_take_of_le (by omega)
      refine stuck ⟨rest.take length, _, ⟨_, full.symm ▸ header, rfl⟩, rest.drop length, ?_⟩
      simp only [List.cons_append, List.append_assoc, List.take_append_drop]
    refine ⟨_, .overrun header ⟨rest, ?_⟩ rfl rfl ?_⟩
    · simp
    · simp only [List.length_append, List.length_cons]
      omega
  · have small : opcode.toNat / 16 < 16 := by
      have := opcode.toNat_lt
      omega
    exact ⟨_, .opcode (by simp) (announce_bare_iff.mp bare) (Text.isLowerDigit_digitChar _ small)
      (Text.isLowerDigit_digitChar _ (Nat.mod_lt _ (by decide)))⟩
  · refine ⟨_, .truncated (by simp) (announce_counted_iff.mp counted) ?_⟩
    simp only [List.length_append, List.length_cons]
    omega

/-- An offence is what the token that begins there is refused for. -/
theorem Offence.refused {before bytes : Bytes} {opcode : UInt8} {detail : String}
    (h : Offence (before ++ opcode :: bytes) before.length detail) :
    (readToken before.length opcode bytes).1.field = .error (.malformedScript detail) := by
  cases h with
  | opcode found outside isHigh isLow =>
    obtain rfl : opcode = _ := by simpa using found
    rw [readToken_bare (announce_bare_iff.mpr outside), opcode_text isHigh isLow]
    rfl
  | truncated found counted short =>
    obtain rfl : opcode = _ := by simpa using found
    rw [readToken_truncated (announce_counted_iff.mpr counted)]
    · rfl
    · simp only [List.length_append, List.length_cons] at short
      omega
  | @overrun length q remaining header announced start hq hr short =>
    rw [List.drop_left] at start
    obtain ⟨code, count, rfl⟩ := List.exists_cons_of_ne_nil announced.ne_nil
    obtain ⟨rest, eq⟩ := start
    rw [List.cons_append] at eq
    obtain ⟨rfl, rfl⟩ := List.cons.inj eq
    have position : q = before.length + 1 + count.length := by
      rw [hq, List.length_cons]
      omega
    have left : remaining = rest.length := by
      simp only [List.length_append, List.length_cons] at hr
      omega
    subst position left
    rw [readToken_header announced, readData_short short]
    rfl

theorem Offence.not_beginsPush {before bytes : Bytes} {opcode : UInt8} {detail : String}
    (h : Offence (before ++ opcode :: bytes) before.length detail) :
    ¬ BeginsPush (opcode :: bytes) := by
  intro begins
  obtain ⟨data, spelling, spelled, tail, eq⟩ := begins
  obtain ⟨code, spelling, rfl⟩ := List.exists_cons_of_ne_nil spelled.ne_nil
  obtain ⟨rfl, rfl⟩ := List.cons.inj eq
  have refused := h.refused
  have read : readToken before.length code (spelling ++ tail) = _ := readToken_spelling spelled
  rw [List.append_eq, read] at refused
  cases refused

/-- The fields of complete pushes come before those of what follows them. -/
theorem mapM_field_append {fields : List Bytes} {pushed : Bytes} (h : Pushes fields pushed)
    (start : Nat) (rest : Bytes) :
    (tokensFrom start [] (pushed ++ rest)).mapM Token.field =
      (fields ++ ·) <$> (tokensFrom (start + pushed.length) [] rest).mapM Token.field := by
  induction h generalizing start with
  | nil => simp
  | @cons field spelling bytes fields spelled _ ih =>
    obtain ⟨opcode, spelling, rfl⟩ := List.exists_cons_of_ne_nil spelled.ne_nil
    rw [List.append_assoc, List.cons_append, tokensFrom_cut (readToken_spelling spelled),
      List.mapM_cons, ih, List.length_append, ← Nat.add_assoc]
    cases (tokensFrom (start + (opcode :: spelling).length + bytes.length) [] rest).mapM Token.field
    next e => rfl
    next others => rfl

section Stalls

variable {marker body : Bytes} {p : Nat}

theorem Stalls.offence (h : Stalls marker body p) :
    ∃ detail, Offence (marker ++ body) p detail := by
  obtain ⟨_, pushed, rest, rfl, rfl, _, nonempty, stuck⟩ := h
  obtain ⟨opcode, bytes, rfl⟩ := List.exists_cons_of_ne_nil nonempty
  rw [← List.append_assoc, ← List.length_append]
  exact exists_offence (marker ++ pushed) stuck

/-- No fields are read past the offset where no complete push begins. -/
theorem Stalls.refused (h : Stalls marker body p) {detail : String}
    (offence : Offence (marker ++ body) p detail) :
    (tokensFrom marker.length [] body).mapM Token.field = .error (.malformedScript detail) := by
  obtain ⟨_, pushed, rest, rfl, rfl, pushes, nonempty, stuck⟩ := h
  obtain ⟨opcode, bytes, rfl⟩ := List.exists_cons_of_ne_nil nonempty
  rw [← List.append_assoc, ← List.length_append] at offence
  have refused := offence.refused
  rw [mapM_field_append pushes, ← List.length_append]
  cases first : readToken (marker ++ pushed).length opcode bytes with
  | mk token after =>
    rw [first] at refused
    rw [tokensFrom_cut first, List.mapM_cons, refused]
    rfl

theorem Stalls.unique {p' : Nat} (h : Stalls marker body p) (h' : Stalls marker body p') :
    p = p' := by
  obtain ⟨_, pushed, rest, rfl, rfl, pushes, _, stuck⟩ := h
  obtain ⟨_, pushed', rest', eq, rfl, pushes', _, stuck'⟩ := h'
  rcases List.append_eq_append_iff.mp eq with ⟨more, rfl, rfl⟩ | ⟨more, rfl, rfl⟩
  · rw [pushes.not_past pushes' stuck, List.append_nil]
  · rw [pushes'.not_past pushes stuck', List.append_nil]

/-- Bytes that are no complete pushes have an offset where none begins. -/
theorem exists_stalls_iff : (∃ p, Stalls marker body p) ↔ ¬ ∃ fields, Pushes fields body := by
  constructor
  · intro h complete
    obtain ⟨_, _, pushed, rest, rfl, _, pushes, nonempty, stuck⟩ := h
    obtain ⟨_, complete⟩ := complete
    obtain ⟨_, _, others⟩ := pushes.of_append complete
    exact stuck (others.beginsPush nonempty)
  · intro incomplete
    obtain ⟨fields, pushed, rest, rfl, pushes, ends⟩ := exists_pushes body
    have nonempty : rest ≠ [] := by
      rintro rfl
      rw [List.append_nil] at incomplete
      exact incomplete ⟨fields, pushes⟩
    exact ⟨_, fields, pushed, rest, rfl, rfl, pushes, nonempty, ends.resolve_left nonempty⟩

end Stalls

end Script

theorem Message.ofScript_malformed_of_stalls {marker body : Bytes} {p : Nat} {detail : String}
    (mem : marker ∈ markers) (stalls : Script.Stalls marker body p)
    (offence : Script.Offence (marker ++ body) p detail) :
    ofScript (marker ++ body) = .error (.malformedScript detail) := by
  have marked : Script.Marked (marker ++ body) marker.length body :=
    Script.marked_iff.mpr ⟨marker, mem, rfl, rfl⟩
  rw [ofScript_eq_error_iff id, marked.fields_eq]
  exact stalls.refused offence

theorem Message.exists_stalls_of_malformed {marker body : Bytes} {detail : String}
    (mem : marker ∈ markers) (h : ofScript (marker ++ body) = .error (.malformedScript detail)) :
    ∃ p, Script.Stalls marker body p := by
  have marked : Script.Marked (marker ++ body) marker.length body :=
    Script.marked_iff.mpr ⟨marker, mem, rfl, rfl⟩
  rw [ofScript_eq_error_iff id, marked.fields_eq] at h
  refine Script.exists_stalls_iff.mpr fun complete => ?_
  obtain ⟨fields, pushes⟩ := complete
  rw [Script.mapM_field_of_pushes pushes] at h
  cases h

theorem Message.exists_malformed_iff {marker : Bytes} (mem : marker ∈ markers) (body : Bytes) :
    (∃ detail, ofScript (marker ++ body) = .error (.malformedScript detail)) ↔
      ¬ ∃ fields, Script.Pushes fields body := by
  rw [← @Script.exists_stalls_iff marker]
  constructor
  · intro h
    obtain ⟨_, h⟩ := h
    exact exists_stalls_of_malformed mem h
  · intro h
    obtain ⟨_, stalls⟩ := h
    obtain ⟨detail, offence⟩ := stalls.offence
    exact ⟨detail, ofScript_malformed_of_stalls mem stalls offence⟩

/-- A script that begins with a marker is malformed if and only if its other bytes are no complete
pushes, whatever they spell; what is said of it is about the first offset where none begins. -/
theorem Message.ofScript_malformed_iff {marker : Bytes} (mem : marker ∈ markers) (body : Bytes) :
    ((∃ detail, ofScript (marker ++ body) = .error (.malformedScript detail)) ↔
        ¬ ∃ fields, Script.Pushes fields body) ∧
      ∀ detail, ofScript (marker ++ body) = .error (.malformedScript detail) ↔
        ∃ p, IsLeast {p | Script.Stalls marker body p} p ∧
          Script.Offence (marker ++ body) p detail := by
  refine ⟨exists_malformed_iff mem body, fun detail => ⟨fun h => ?_, fun h => ?_⟩⟩
  · obtain ⟨p, stalls⟩ := exists_stalls_of_malformed mem h
    obtain ⟨said, offence⟩ := stalls.offence
    have refused := ofScript_malformed_of_stalls mem stalls offence
    rw [h] at refused
    cases refused
    exact ⟨p, ⟨stalls, fun _ other => Nat.le_of_eq (stalls.unique other)⟩, offence⟩
  · obtain ⟨_, ⟨stalls, _⟩, offence⟩ := h
    exact ofScript_malformed_of_stalls mem stalls offence

/-- A message is malformed although its fields are missing, where its tag is followed by half a
count, by an opcode or by a push of more bytes than there are. -/
theorem Message.ofScript_malformed_of_each_offence :
    ([0x6a, 0x04, 0x53, 0x4c, 0x50, 0x00] : Bytes) ∈ markers ∧
    ofScript ([0x6a, 0x04, 0x53, 0x4c, 0x50, 0x00] ++
        [0x01, 0x01, 0x04, 0x53, 0x45, 0x4e, 0x44, 0x4d, 0x01]) =
      .error (.malformedScript "truncated 2-byte pushdata length at offset 14") ∧
    ofScript ([0x6a, 0x04, 0x53, 0x4c, 0x50, 0x00] ++
        [0x01, 0x01, 0x04, 0x53, 0x45, 0x4e, 0x44, 0xac, 0x01]) = .error (.malformedScript
      "opcode 0xac at offset 13 is not permitted in an SLP message") ∧
    ofScript ([0x6a, 0x04, 0x53, 0x4c, 0x50, 0x00] ++
        [0x01, 0x01, 0x04, 0x53, 0x45, 0x4e, 0x44, 0x05, 0x01]) = .error (.malformedScript
      "push of 5 bytes at offset 14 exceeds remaining 1 bytes") := by
  have tokenType : Script.Spelling [0x01] [0x01, 0x01] := ⟨_, .direct (by decide) (by decide), rfl⟩
  have tag : Script.Spelling [0x53, 0x45, 0x4e, 0x44] [0x04, 0x53, 0x45, 0x4e, 0x44] :=
    ⟨_, .direct (by decide) (by decide), rfl⟩
  have refused (code : UInt8) (detail : String)
      (offence : Script.Offence ([0x6a, 0x04, 0x53, 0x4c, 0x50, 0x00] ++ [0x01, 0x01] ++
        [0x04, 0x53, 0x45, 0x4e, 0x44] ++ [code, 0x01]) 13 detail) :
      ofScript ([0x6a, 0x04, 0x53, 0x4c, 0x50, 0x00] ++
          [0x01, 0x01, 0x04, 0x53, 0x45, 0x4e, 0x44, code, 0x01]) =
        .error (.malformedScript detail) := by
    have stalls : Script.Stalls [0x6a, 0x04, 0x53, 0x4c, 0x50, 0x00]
        [0x01, 0x01, 0x04, 0x53, 0x45, 0x4e, 0x44, code, 0x01] 13 :=
      ⟨_, _, [code, 0x01], rfl, rfl, .cons tokenType (.cons tag .nil), List.cons_ne_nil _ _,
        offence.not_beginsPush⟩
    refine ((ofScript_malformed_iff (by decide) _).2 _).mpr ⟨13, ?_, offence⟩
    exact ⟨stalls, fun _ other => Nat.le_of_eq (stalls.unique other)⟩
  have count := @Script.Offence.truncated ([0x6a, 0x04, 0x53, 0x4c, 0x50, 0x00] ++ [0x01, 0x01] ++
    [0x04, 0x53, 0x45, 0x4e, 0x44] ++ [0x4d, 0x01]) 13 0x4d 2 rfl (by decide) (by decide)
  have opcode := @Script.Offence.opcode ([0x6a, 0x04, 0x53, 0x4c, 0x50, 0x00] ++ [0x01, 0x01] ++
    [0x04, 0x53, 0x45, 0x4e, 0x44] ++ [0xac, 0x01]) 13 0xac 'a' 'c' rfl (by decide) rfl rfl
  have push := @Script.Offence.overrun ([0x6a, 0x04, 0x53, 0x4c, 0x50, 0x00] ++ [0x01, 0x01] ++
    [0x04, 0x53, 0x45, 0x4e, 0x44] ++ [0x05, 0x01]) 13 5 14 1 [0x05]
    (.direct (by decide) (by decide)) ⟨[0x01], rfl⟩ rfl rfl (by decide)
  exact ⟨by decide, refused _ _ count, refused _ _ opcode, refused _ _ push⟩

end SimpleLedger
