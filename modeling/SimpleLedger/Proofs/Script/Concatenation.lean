import SimpleLedger.Proofs.Script.Drive

namespace SimpleLedger.Script

/-- The same fault in bytes that begin further on. -/
def Fault.moved (distance : Nat) : Fault → Fault
  | truncatedLength width offset => .truncatedLength width (distance + offset)
  | overrun length offset remaining => .overrun length (distance + offset) remaining

theorem Fault.moved_inj {distance : Nat} {fault other : Fault} :
    fault.moved distance = other.moved distance ↔ fault = other := by
  cases fault <;> cases other <;> simp [moved]

/-- The same token in bytes that begin further on. -/
def Token.moved (distance : Nat) (token : Token) : Token :=
  ⟨distance + token.start, distance + token.stop, token.content.mapError (Fault.moved distance)⟩

section Tokens

variable {start : Nat} {bytes rest : Bytes} {token : Token}

theorem Cut.moved (h : Cut start bytes token rest) (distance : Nat) :
    Cut (distance + start) bytes (token.moved distance) rest := by
  cases h with
  | push spelled eq =>
    rw [Token.moved, ← Nat.add_assoc]
    exact .push spelled eq
  | op bare => exact .op bare
  | truncated counted short => exact .truncated counted short
  | overrun header eq short =>
    rw [Token.moved, Except.mapError, Fault.moved, ← Nat.add_assoc]
    exact .overrun header eq short

theorem tokensFrom_moved (distance start : Nat) (bytes : Bytes) :
    tokensFrom (distance + start) [] bytes =
      (tokensFrom start [] bytes).map (Token.moved distance) := by
  induction start, bytes using tokens_induction with
  | nil => simp [tokensFrom_nil]
  | cut start bytes token rest cut first ih =>
    rw [(cut.moved distance).tokensFrom_eq, first, List.map_cons, ← ih]
    rfl

/-- Bytes that are free of faults leave those after them to be read on their own. -/
theorem tokensFrom_append_of_read (start : Nat) (bytes more : Bytes)
    (read : ∀ token ∈ tokensFrom start [] bytes, ∃ element, token.content = .ok element) :
    tokensFrom start [] (bytes ++ more) =
      tokensFrom start [] bytes ++ tokensFrom (start + bytes.length) [] more := by
  induction start, bytes using tokens_induction with
  | nil => simp [tokensFrom_nil]
  | cut start bytes token rest cut first ih =>
    rw [first] at read ⊢
    obtain ⟨⟨element, found⟩, others⟩ := List.forall_mem_cons.mp read
    obtain ⟨covered, spelled, rfl, stop⟩ := cut.covered found
    -- what spells the element is still there with more behind it, so the same token is cut
    have whole : token = ⟨start, start + covered.length, .ok element⟩ := by
      rw [← stop, ← cut.start_eq, ← found]
    have cut' := spelled.cut start (rest ++ more)
    rw [← whole] at cut'
    rw [List.append_assoc, cut'.tokensFrom_eq, ih others, stop, List.length_append, Nat.add_assoc]
    rfl

theorem mapM_content_moved (distance : Nat) (tokens : List Token) :
    (tokens.map (Token.moved distance)).mapM Token.content =
      (tokens.mapM Token.content).mapError (Fault.moved distance) := by
  induction tokens with
  | nil => rfl
  | cons token tokens ih =>
    rw [List.map_cons, List.mapM_cons, List.mapM_cons, ih, Token.moved]
    cases token.content with
    | error fault => rfl
    | ok element => cases tokens.mapM Token.content <;> rfl

end Tokens

variable {script : Bytes} {read : List Element}

theorem tokens_append (h : elements script = .ok read) (more : Bytes) :
    tokens (script ++ more) =
      tokens script ++ (tokens more).map (Token.moved script.length) := by
  have free := exists_content_of_elements_eq_ok h
  rw [tokens, tokensFrom_append_of_read 0 script more free, Nat.zero_add]
  exact congrArg (tokens script ++ ·) (tokensFrom_moved script.length 0 more)

theorem elements_append (h : elements script = .ok read) (more : Bytes) :
    elements (script ++ more) =
      ((elements more).mapError (Fault.moved script.length)).map (read ++ ·) := by
  have first : (tokens script).mapM Token.content = .ok read := h
  rw [elements, tokens_append h, List.mapM_append, first, mapM_content_moved, ← elements]
  cases elements more <;> rfl

/-- After a script that is free of faults, a tokenizer gives the same answers at the same positions
as on that script alone, and then those that it gives on the other script alone, further on by the
length of the first. -/
theorem elements_append_answers (h : elements script = .ok read) (more : Bytes) :
    Tokenizer.Answers script (tokens script) ∧ Tokenizer.Answers more (tokens more) ∧
      Tokenizer.Answers (script ++ more)
        (tokens script ++ (tokens more).map (Token.moved script.length)) ∧
      (tokens script).map Token.content = read.map Except.ok ∧
      (∀ fault, elements more = .error fault ↔
        elements (script ++ more) = .error (fault.moved script.length)) ∧
      ∀ others, elements (script ++ more) = .ok (read ++ others) ↔ elements more = .ok others := by
  have joined := Tokenizer.answers_tokens (script ++ more)
  rw [tokens_append h] at joined
  refine ⟨Tokenizer.answers_tokens script, Tokenizer.answers_tokens more, joined,
    elements_eq_ok_iff.mp h, fun fault => ?_, fun others => ?_⟩
  · rw [elements_append h]
    cases elements more with
    | ok others => simp [Except.mapError, Except.map]
    | error other => simp [Except.mapError, Except.map, Fault.moved_inj]
  · rw [elements_append h]
    cases elements more <;> simp [Except.mapError, Except.map]

/-- A push that breaks off is told of by its offset in both scripts together. -/
theorem elements_append_answers_of_overrun :
    elements [0x4d, 0x01, 0x00, 0xff, 0x6a] = .ok [.push [0xff], .op 0x6a] ∧
    elements ([0x4d, 0x01, 0x00, 0xff, 0x6a] ++ [0x51, 0x4c, 0x03, 0xaa]) =
      .error (.overrun 3 8 1) := by
  have first : elements [0x4d, 0x01, 0x00, 0xff, 0x6a] = .ok [.push [0xff], .op 0x6a] := by
    decide +kernel
  have second : elements [0x51, 0x4c, 0x03, 0xaa] = .error (.overrun 3 3 1) := by decide +kernel
  obtain ⟨_, _, _, _, faults, _⟩ := elements_append_answers first [0x51, 0x4c, 0x03, 0xaa]
  exact ⟨first, (faults (.overrun 3 3 1)).mp second⟩

end SimpleLedger.Script
