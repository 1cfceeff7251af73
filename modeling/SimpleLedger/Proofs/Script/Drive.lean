import SimpleLedger.Script.Tokenizer
import SimpleLedger.Proofs.Outcome
import SimpleLedger.Proofs.Script.Boundary
import SimpleLedger.Proofs.Script.Reading

namespace SimpleLedger.Script

/-- The bytes that an element is read from. -/
inductive Element.Spelled : Element → Bytes → Prop
  | op {code : UInt8} : ¬ (0x01 ≤ code ∧ code ≤ 0x4e) → Spelled (.op code) [code]
  | push {data spelling : Bytes} : Spelling data spelling → Spelled (.push data) spelling

/-- Some answers of a tokenizer take it from one state to another; each is recorded with the
positions before and after it. -/
inductive Tokenizer.Drives : Tokenizer → List Token → Tokenizer → Prop
  | done {t : Tokenizer} : Drives t [] t
  | step {t between last : Tokenizer} {answer : Except Fault Element} {steps : List Token} :
    t.next = (some answer, between) → Drives between steps last →
    Drives t (⟨t.position, between.position, answer⟩ :: steps) last

/-- Driven over a script, a tokenizer answers with some steps and then stops for good. -/
def Tokenizer.Answers (script : Bytes) (steps : List Token) : Prop :=
  ∃ last, (ofScript script).Drives steps last ∧ last.next = (none, last)

section Cut

variable {start : Nat} {bytes rest : Bytes} {token : Token}

/-- The bytes settle their first token and what is left after it. -/
theorem Cut.exists_readToken (h : Cut start bytes token rest) : ∃ opcode tail,
    bytes = opcode :: tail ∧ readToken start opcode tail = (token, rest) := by
  cases h with
  | push spelled eq =>
    obtain ⟨opcode, spelling, rfl⟩ := List.exists_cons_of_ne_nil spelled.ne_nil
    exact ⟨opcode, _, eq, readToken_spelling spelled⟩
  | op bare => exact ⟨_, _, rfl, readToken_bare bare⟩
  | truncated counted short => exact ⟨_, _, rfl, readToken_truncated counted short⟩
  | overrun header eq short =>
    obtain ⟨opcode, count, rfl⟩ := List.exists_cons_of_ne_nil header.ne_nil
    refine ⟨opcode, _, eq, ?_⟩
    rw [List.append_eq, readToken_header header, readData_short short, Nat.add_assoc,
      Nat.add_comm 1]
    rfl

theorem Cut.tokensFrom_eq (h : Cut start bytes token rest) :
    tokensFrom start [] bytes = token :: tokensFrom token.stop [] rest := by
  obtain ⟨opcode, tail, rfl, read⟩ := h.exists_readToken
  exact tokensFrom_cut read

theorem Cut.start_eq (h : Cut start bytes token rest) : token.start = start := by
  cases h <;> rfl

/-- A token of an element covers the bytes that spell it, and no others. -/
theorem Cut.covered {element : Element} (h : Cut start bytes token rest)
    (read : token.content = .ok element) : ∃ covered, element.Spelled covered ∧
      bytes = covered ++ rest ∧ token.stop = start + covered.length := by
  cases h with
  | push spelled eq =>
    cases read
    exact ⟨_, .push spelled, eq, rfl⟩
  | op bare =>
    cases read
    exact ⟨[_], .op (announce_bare_iff.mp bare), rfl, rfl⟩
  | truncated => cases read
  | overrun => cases read

theorem Element.Spelled.cut {element : Element} {covered : Bytes} (h : element.Spelled covered)
    (start : Nat) (rest : Bytes) :
    Cut start (covered ++ rest) ⟨start, start + covered.length, .ok element⟩ rest := by
  cases h with
  | op outside => exact .op (announce_bare_iff.mpr outside)
  | push spelled => exact .push spelled rfl

/-- Nothing is left after a fault. -/
theorem Cut.rest_eq_nil {fault : Fault} (h : Cut start bytes token rest)
    (met : token.content = .error fault) : rest = [] := by
  cases h with
  | push => cases met
  | op => cases met
  | truncated => rfl
  | overrun => rfl

theorem Cut.next_eq (h : Cut start bytes token rest) :
    Tokenizer.next ⟨start, bytes, false⟩ = (some token.content,
      ⟨token.stop, bytes.drop (token.stop - start), !token.content.isOk⟩) := by
  obtain ⟨opcode, tail, rfl, read⟩ := h.exists_readToken
  rw [Tokenizer.next, read]

end Cut

namespace Tokenizer

theorem next_of_failed (position : Nat) (ahead : Bytes) :
    next ⟨position, ahead, true⟩ = (none, ⟨position, ahead, true⟩) := by
  cases ahead <;> rfl

theorem next_of_end (position : Nat) (failed : Bool) :
    next ⟨position, [], failed⟩ = (none, ⟨position, [], failed⟩) := by
  cases failed <;> rfl

theorem Drives.unique {t last last' : Tokenizer} {steps steps' : List Token}
    (h : t.Drives steps last) (h' : t.Drives steps' last') (ends : last.next.1 = none)
    (ends' : last'.next.1 = none) : steps = steps' ∧ last = last' := by
  induction h generalizing steps' with
  | done =>
    cases h' with
    | done => exact ⟨rfl, rfl⟩
    | step answered _ =>
      rw [answered] at ends
      cases ends
  | step answered _ ih =>
    cases h' with
    | done =>
      rw [answered] at ends'
      cases ends'
    | step answered' others =>
      rw [answered] at answered'
      cases answered'
      obtain ⟨rfl, rfl⟩ := ih others ends
      exact ⟨rfl, rfl⟩

/-- Driven from any offset, a tokenizer answers with the tokens from there on, and then with
nothing. -/
theorem drives_tokensFrom (start : Nat) (bytes : Bytes) :
    ∃ last, Drives ⟨start, bytes, false⟩ (tokensFrom start [] bytes) last ∧
      last.next = (none, last) := by
  induction start, bytes using tokens_induction with
  | nil start =>
    rw [tokensFrom_nil]
    exact ⟨_, .done, next_of_end start false⟩
  | cut start bytes token rest cut first ih =>
    rw [first]
    have answered := cut.next_eq
    obtain ⟨begun, stop, content⟩ := token
    obtain rfl : begun = start := cut.start_eq
    cases content with
    | ok element =>
      obtain ⟨covered, _, rfl, same⟩ := cut.covered rfl
      obtain rfl : stop = begun + covered.length := same
      rw [Nat.add_sub_cancel_left, List.drop_left] at answered
      obtain ⟨last, driven, ends⟩ := ih
      exact ⟨last, .step answered driven, ends⟩
    | error fault =>
      -- bytes may be left ahead, but nothing is read after a fault
      obtain rfl := cut.rest_eq_nil rfl
      rw [tokensFrom_nil]
      exact ⟨_, .step answered .done, next_of_failed _ _⟩

theorem answers_tokens (script : Bytes) : Answers script (tokens script) :=
  drives_tokensFrom 0 script

end Tokenizer

section Elements

variable {script : Bytes} {read : List Element}

theorem elements_eq_ok_iff :
    elements script = .ok read ↔ (tokens script).map Token.content = read.map Except.ok :=
  mapM_eq_ok_iff_map_eq

/-- Where the elements can be read, no token is a fault. -/
theorem exists_content_of_elements_eq_ok (h : elements script = .ok read) :
    ∀ token ∈ tokens script, ∃ element, token.content = .ok element := by
  intro token mem
  have among : token.content ∈ read.map Except.ok :=
    elements_eq_ok_iff.mp h ▸ List.mem_map_of_mem mem
  obtain ⟨element, _, eq⟩ := List.mem_map.mp among
  exact ⟨element, eq.symm⟩

end Elements

end SimpleLedger.Script
