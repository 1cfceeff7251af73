import SimpleLedger.Script.Token
import SimpleLedger.Proofs.Script.Spelling

namespace SimpleLedger.Script

/-- The first token of bytes that begin at `start`, and the bytes after it. -/
inductive Cut (start : Nat) : Bytes → Token → Bytes → Prop
  | push {data spelling bytes rest : Bytes} : Spelling data spelling → bytes = spelling ++ rest →
    Cut start bytes ⟨start, start + spelling.length, .ok (.push data)⟩ rest
  | op {code : UInt8} {rest : Bytes} : announce code = .bare →
    Cut start (code :: rest) ⟨start, start + 1, .ok (.op code)⟩ rest
  | truncated {code : UInt8} {width : Nat} {rest : Bytes} :
    announce code = .counted width → rest.length < width →
    Cut start (code :: rest) ⟨start, start + 1, .error (.truncatedLength width (start + 1))⟩ []
  | overrun {length : Nat} {header bytes rest : Bytes} : Header length header →
    bytes = header ++ rest → rest.length < length →
    Cut start bytes ⟨start, start + header.length,
      .error (.overrun length (start + header.length) rest.length)⟩ []

theorem readData_append {start offset : Nat} {data rest : Bytes} :
    readData start offset data.length (data ++ rest) =
      (⟨start, offset + data.length, .ok (.push data)⟩, rest) := by
  have h : Bytes.split? data.length (data ++ rest) = some (data, rest) :=
    Bytes.split?_eq_some_iff.mpr ⟨rfl, rfl⟩
  simp [readData, h]

theorem readData_short {start offset length : Nat} {bytes : Bytes} (short : bytes.length < length) :
    readData start offset length bytes =
      (⟨start, offset, .error (.overrun length offset bytes.length)⟩, []) := by
  have h : Bytes.split? length bytes = none := by
    rw [Bytes.split?_eq, if_neg (by omega)]
  simp [readData, h]

theorem readToken_bare {start : Nat} {opcode : UInt8} {bytes : Bytes}
    (h : announce opcode = .bare) :
    readToken start opcode bytes = (⟨start, start + 1, .ok (.op opcode)⟩, bytes) := by
  simp [readToken, h]

theorem readToken_truncated {start width : Nat} {opcode : UInt8} {bytes : Bytes}
    (h : announce opcode = .counted width) (short : bytes.length < width) :
    readToken start opcode bytes =
      (⟨start, start + 1, .error (.truncatedLength width (start + 1))⟩, []) := by
  have hs : Bytes.split? width bytes = none := by
    rw [Bytes.split?_eq, if_neg (by omega)]
  simp [readToken, h, hs]

theorem readToken_header {start length : Nat} {opcode : UInt8} {count rest : Bytes}
    (h : Header length (opcode :: count)) :
    readToken start opcode (count ++ rest) =
      readData start (start + 1 + count.length) length rest := by
  rcases header_iff_announce.mp h with ⟨direct, rfl⟩ | ⟨counted, rfl⟩
  · simp [readToken, direct]
  · have hs : Bytes.split? count.length (count ++ rest) = some (count, rest) :=
      Bytes.split?_eq_some_iff.mpr ⟨rfl, rfl⟩
    simp [readToken, counted, hs]

/-- Every opcode begins a header, or stands alone, or breaks off before its count. -/
theorem header_cases (opcode : UInt8) (bytes : Bytes) :
    (∃ length count rest, Header length (opcode :: count) ∧ bytes = count ++ rest) ∨
      announce opcode = .bare ∨
        ∃ width, announce opcode = .counted width ∧ bytes.length < width := by
  cases h : announce opcode with
  | direct length => exact .inl ⟨length, [], bytes, header_iff_announce.mpr (.inl ⟨h, rfl⟩), rfl⟩
  | counted width =>
    by_cases short : bytes.length < width
    · exact .inr (.inr ⟨width, rfl, short⟩)
    · have full : (bytes.take width).length = width := List.length_take_of_le (by omega)
      refine .inl ⟨_, bytes.take width, bytes.drop width, header_iff_announce.mpr (.inr ⟨?_, rfl⟩),
        (List.take_append_drop width bytes).symm⟩
      rw [full, h]
  | bare => exact .inr (.inl rfl)

theorem readToken_cut (start : Nat) (opcode : UInt8) (bytes : Bytes) :
    Cut start (opcode :: bytes) (readToken start opcode bytes).1
      (readToken start opcode bytes).2 := by
  rcases header_cases opcode bytes with
    ⟨length, count, rest, header, rfl⟩ | bare | ⟨width, counted, short⟩
  · rw [readToken_header header]
    by_cases short : rest.length < length
    · rw [readData_short short, Nat.add_assoc, Nat.add_comm 1]
      exact .overrun header rfl short
    · obtain ⟨data, tail, rfl, rfl⟩ : ∃ data tail, rest = data ++ tail ∧ data.length = length :=
        ⟨rest.take length, rest.drop length, (List.take_append_drop length rest).symm,
          List.length_take_of_le (by omega)⟩
      have stop : start + 1 + count.length + data.length =
          start + (opcode :: count ++ data).length := by
        simp only [List.cons_append, List.length_cons, List.length_append]
        omega
      rw [readData_append, stop]
      exact .push ⟨_, header, rfl⟩ (by simp)
  · rw [readToken_bare bare]
    exact .op bare
  · rw [readToken_truncated counted short]
    exact .truncated counted short

theorem readToken_spelling {start : Nat} {opcode : UInt8} {data spelling rest : Bytes}
    (h : Spelling data (opcode :: spelling)) :
    readToken start opcode (spelling ++ rest) =
      (⟨start, start + (opcode :: spelling).length, .ok (.push data)⟩, rest) := by
  obtain ⟨header, announced, eq⟩ := h
  cases header with
  | nil => exact absurd rfl announced.ne_nil
  | cons code count =>
    obtain ⟨rfl, rfl⟩ : opcode = code ∧ spelling = count ++ data := List.cons.inj eq
    have stop : start + 1 + count.length + data.length =
        start + (opcode :: (count ++ data)).length := by
      simp only [List.length_cons, List.length_append]
      omega
    rw [List.append_assoc, readToken_header announced, readData_append, stop]

theorem tokensFrom_append (start : Nat) (taken earlier : List Token) (bytes : Bytes) :
    tokensFrom start (taken ++ earlier) bytes =
      earlier.reverse ++ tokensFrom start taken bytes := by
  fun_induction tokensFrom start taken bytes with
  | case1 => simp [tokensFrom_nil]
  | case2 start taken opcode bytes reading ih =>
    rw [tokensFrom_cons]
    exact ih

/-- The tokens of bytes that begin with an opcode are its own token and those of what follows. -/
theorem tokensFrom_cut {start : Nat} {opcode : UInt8} {bytes rest : Bytes} {token : Token}
    (h : readToken start opcode bytes = (token, rest)) :
    tokensFrom start [] (opcode :: bytes) = token :: tokensFrom token.stop [] rest := by
  rw [tokensFrom_cons, h]
  exact tokensFrom_append token.stop [] [token] rest

theorem tokensFrom_eq_cons {start : Nat} {bytes : Bytes} {token : Token} {after : List Token}
    (h : tokensFrom start [] bytes = token :: after) :
    ∃ rest, Cut start bytes token rest ∧ after = tokensFrom token.stop [] rest := by
  cases bytes with
  | nil =>
    rw [tokensFrom_nil] at h
    cases h
  | cons opcode bytes =>
    rw [tokensFrom_cut rfl] at h
    obtain ⟨rfl, rfl⟩ := List.cons.inj h
    exact ⟨_, readToken_cut start opcode bytes, rfl⟩

/-- Induction on the bytes of a script, one token at a time. -/
@[elab_as_elim]
theorem tokens_induction {motive : Nat → Bytes → Prop} (start : Nat) (bytes : Bytes)
    (nil : ∀ start, motive start [])
    (cut : ∀ start bytes token rest, Cut start bytes token rest →
      tokensFrom start [] bytes = token :: tokensFrom token.stop [] rest →
      motive token.stop rest → motive start bytes) : motive start bytes := by
  generalize hn : bytes.length = n
  induction n using Nat.strongRecOn generalizing start bytes with
  | ind n ih =>
    cases bytes with
    | nil => exact nil start
    | cons opcode bytes =>
      have shorter := readToken_length_le start opcode bytes
      refine cut _ _ _ _ (readToken_cut start opcode bytes) (tokensFrom_cut rfl) ?_
      exact ih _ (by simp only [List.length_cons] at hn; omega) _ _ rfl

end SimpleLedger.Script
