import Mathlib.Data.List.Basic
import SimpleLedger.Proofs.Script.Drive

namespace SimpleLedger.Script

/-- The bytes of a script between the two positions of a token. -/
def Token.slice (script : Bytes) (token : Token) : Bytes :=
  (script.drop token.start).take (token.stop - token.start)

/-- A fault is met in the bytes from `start` on, and `stop` is right after the opcode whose count of
bytes breaks off, or right after the header whose data do. -/
inductive Fault.Met (script : Bytes) (start stop : Nat) : Fault → Prop
  | truncated {code : UInt8} {width : Nat} : script[start]? = some code →
    (code, width) ∈ [((0x4c : UInt8), 1), (0x4d, 2), (0x4e, 4)] → stop = start + 1 →
    script.length - stop < width → Met script start stop (.truncatedLength width stop)
  | overrun {length remaining : Nat} {header : Bytes} : Header length header →
    header <+: script.drop start → stop = start + header.length →
    remaining = script.length - stop → remaining < length →
    Met script start stop (.overrun length stop remaining)

/-- The pieces into which some steps that end at the position `last` cut a script. -/
structure Partition (script : Bytes) (steps : List Token) (last : Nat) : Prop where
  /-- Each step begins where the one before it stopped. -/
  joined : steps.map Token.start ++ [last] = 0 :: steps.map Token.stop
  increasing : (0 :: steps.map Token.stop).Pairwise (· < ·)
  inside : ∀ position ∈ 0 :: steps.map Token.stop, position ≤ script.length
  few : steps.length ≤ script.length
  /-- Whether an element is read, and which, is settled by the bytes between the positions. -/
  spelled : ∀ step ∈ steps, ∀ element : Element,
    step.content = .ok element ↔ element.Spelled (step.slice script)
  whole : (∀ step ∈ steps, ∃ element, step.content = .ok element) →
    last = script.length ∧ (steps.map (Token.slice script)).flatten = script
  stopped : ∀ step ∈ steps, ∀ fault : Fault, step.content = .error fault →
    steps.getLast? = some step ∧ last = step.stop ∧ fault.Met script step.start step.stop

section Cut

variable {start : Nat} {bytes rest : Bytes} {token : Token}

theorem Cut.unique {token' : Token} {rest' : Bytes} (h : Cut start bytes token rest)
    (h' : Cut start bytes token' rest') : token = token' ∧ rest = rest' := by
  obtain ⟨_, _, rfl, read⟩ := h.exists_readToken
  obtain ⟨_, _, eq, read'⟩ := h'.exists_readToken
  obtain ⟨rfl, rfl⟩ := List.cons.inj eq
  exact Prod.mk.inj (read.symm.trans read')

theorem Cut.bounds (h : Cut start bytes token rest) :
    start < token.stop ∧ token.stop ≤ start + bytes.length ∧ rest.length < bytes.length := by
  cases h with
  | push spelled eq =>
    have := List.length_pos_iff.mpr spelled.ne_nil
    simp only [eq, List.length_append]
    omega
  | op => simp
  | truncated => simp
  | overrun header eq =>
    have := List.length_pos_iff.mpr header.ne_nil
    simp only [eq, List.length_append, List.length_nil]
    omega

theorem Cut.content_iff (h : Cut start bytes token rest) (element : Element) :
    token.content = .ok element ↔ element.Spelled (bytes.take (token.stop - start)) := by
  constructor
  · intro read
    obtain ⟨covered, spelled, rfl, stop⟩ := h.covered read
    rw [stop, Nat.add_sub_cancel_left, List.take_left]
    exact spelled
  · intro spelled
    have cut := spelled.cut start (bytes.drop (token.stop - start))
    rw [List.take_append_drop] at cut
    exact (h.unique cut).1 ▸ rfl

theorem Cut.met {fault : Fault} {before : Bytes} (h : Cut before.length bytes token rest)
    (failed : token.content = .error fault) :
    fault.Met (before ++ bytes) before.length token.stop := by
  cases h with
  | push => cases failed
  | op => cases failed
  | @truncated code width tail counted short =>
    cases failed
    refine .truncated (by simp) (announce_counted_iff.mp counted) rfl ?_
    simp only [List.length_append, List.length_cons]
    omega
  | @overrun length header _ tail announced eq short =>
    cases failed
    subst eq
    refine .overrun announced ?_ rfl ?_ short
    · rw [List.drop_left]
      exact List.prefix_append header tail
    · simp only [List.length_append]
      omega

end Cut

section Tokens

variable {start : Nat} {bytes : Bytes}

theorem tokensFrom_isChain (start : Nat) (bytes : Bytes) :
    (start :: (tokensFrom start [] bytes).map Token.stop).IsChain (· < ·) := by
  induction start, bytes using tokens_induction with
  | nil => simp [tokensFrom_nil]
  | cut start bytes token rest cut first ih =>
    rw [first, List.map_cons]
    exact .cons_cons cut.bounds.1 ih

theorem length_tokensFrom_le (start : Nat) (bytes : Bytes) :
    (tokensFrom start [] bytes).length ≤ bytes.length := by
  induction start, bytes using tokens_induction with
  | nil => simp [tokensFrom_nil]
  | cut start bytes token rest cut first ih =>
    have := cut.bounds.2.2
    rw [first, List.length_cons]
    omega

/-- Every token is cut off the bytes that begin where it does, and those after it are the tokens of
what it leaves. -/
theorem exists_cut {token : Token} (mem : token ∈ tokensFrom start [] bytes) :
    ∃ before behind rest earlier, bytes = before ++ behind ∧
      Cut (start + before.length) behind token rest ∧
      tokensFrom start [] bytes = earlier ++ token :: tokensFrom token.stop [] rest := by
  induction start, bytes using tokens_induction with
  | nil =>
    rw [tokensFrom_nil] at mem
    cases mem
  | cut start bytes first rest cut eq ih =>
    rw [eq] at mem ⊢
    rcases List.mem_cons.mp mem with rfl | mem
    · exact ⟨[], bytes, rest, [], rfl, cut, rfl⟩
    · cases read : first.content with
      | error fault =>
        rw [cut.rest_eq_nil read, tokensFrom_nil] at mem
        cases mem
      | ok element =>
        obtain ⟨covered, _, rfl, stop⟩ := cut.covered read
        obtain ⟨before, behind, left, earlier, rfl, cut', others⟩ := ih mem
        refine ⟨covered ++ before, behind, left, first :: earlier, ?_, ?_, ?_⟩
        · rw [List.append_assoc]
        · rwa [List.length_append, ← Nat.add_assoc, ← stop]
        · rw [others, List.cons_append]

/-- Without a fault, the pieces make up all the bytes. -/
theorem tokensFrom_whole (before bytes : Bytes)
    (read : ∀ token ∈ tokensFrom before.length [] bytes, ∃ element, token.content = .ok element) :
    ((tokensFrom before.length [] bytes).map Token.stop).getLastD before.length =
        before.length + bytes.length ∧
      ((tokensFrom before.length [] bytes).map (Token.slice (before ++ bytes))).flatten = bytes := by
  generalize begun : before.length = start at read ⊢
  -- the bytes before grow with each token, for the pieces are taken from all bytes together
  induction start, bytes using tokens_induction generalizing before with
  | nil => simp [tokensFrom_nil]
  | cut start bytes token rest cut first ih =>
    subst begun
    rw [first] at read ⊢
    obtain ⟨⟨element, found⟩, others⟩ := List.forall_mem_cons.mp read
    obtain ⟨covered, _, rfl, stop⟩ := cut.covered found
    obtain ⟨last, pieces⟩ := ih (before ++ covered) (by rw [List.length_append, stop]) others
    rw [List.append_assoc] at pieces
    have piece : token.slice (before ++ (covered ++ rest)) = covered := by
      rw [Token.slice, cut.start_eq, stop, List.drop_left, Nat.add_sub_cancel_left, List.take_left]
    rw [List.map_cons, List.getLastD_cons, last, List.map_cons, List.flatten_cons, piece, pieces,
      stop, List.length_append, Nat.add_assoc]
    exact ⟨rfl, rfl⟩

end Tokens

namespace Tokenizer

theorem Drives.joined {t last : Tokenizer} {steps : List Token} (h : t.Drives steps last) :
    steps.map Token.start ++ [last.position] = t.position :: steps.map Token.stop := by
  induction h with
  | done => rfl
  | step _ _ ih => rw [List.map_cons, List.cons_append, ih, List.map_cons]

theorem Drives.last_position {t last : Tokenizer} {steps : List Token} (h : t.Drives steps last) :
    last.position = (steps.map Token.stop).getLastD t.position := by
  induction h with
  | done => rfl
  | step _ _ ih => rw [List.map_cons, List.getLastD_cons, ih]

end Tokenizer

theorem Tokenizer.Drives.partition {script : Bytes} {last : Tokenizer}
    (driven : (ofScript script).Drives (tokens script) last) :
    Partition script (tokens script) last.position where
  joined := driven.joined
  increasing := List.isChain_iff_pairwise.mp (tokensFrom_isChain 0 script)
  inside := by
    refine List.forall_mem_cons.mpr ⟨Nat.zero_le _, List.forall_mem_map.mpr fun token mem => ?_⟩
    obtain ⟨before, behind, rest, _, rfl, cut, _⟩ := exists_cut mem
    have := cut.bounds.2.1
    rw [List.length_append]
    omega
  few := length_tokensFrom_le 0 script
  spelled := by
    intro step mem element
    obtain ⟨before, behind, rest, _, rfl, cut, _⟩ := exists_cut mem
    rw [Nat.zero_add] at cut
    rw [Token.slice, cut.start_eq, List.drop_left]
    exact cut.content_iff element
  whole := by
    intro read
    obtain ⟨reached, pieces⟩ := tokensFrom_whole [] script read
    exact ⟨driven.last_position.trans (reached.trans (Nat.zero_add _)), pieces⟩
  stopped := by
    intro step mem fault failed
    obtain ⟨before, behind, rest, earlier, rfl, cut, eq⟩ := exists_cut mem
    rw [Nat.zero_add] at cut
    have ending : tokens (before ++ behind) = earlier ++ [step] := by
      rw [tokens, eq, cut.rest_eq_nil failed, tokensFrom_nil]
      rfl
    refine ⟨by simp [ending], ?_, cut.start_eq ▸ cut.met failed⟩
    rw [driven.last_position, ending]
    simp

/-- The only fault of a script is that of its last token. -/
theorem Partition.elements_eq_error_iff {script : Bytes} {last : Nat}
    (cuts : Partition script (tokens script) last) (fault : Fault) :
    elements script = .error fault ↔ ∃ step ∈ tokens script, step.content = .error fault := by
  constructor
  · exact exists_of_mapM_eq_error
  · intro h
    obtain ⟨step, mem, failed⟩ := h
    cases outcome : elements script with
    | ok read =>
      obtain ⟨_, ok⟩ := exists_content_of_elements_eq_ok outcome step mem
      rw [failed] at ok
      cases ok
    | error other =>
      obtain ⟨step', mem', failed'⟩ := exists_of_mapM_eq_error outcome
      have ends := (cuts.stopped step mem fault failed).1
      have ends' := (cuts.stopped step' mem' other failed').1
      rw [ends] at ends'
      obtain rfl := Option.some.inj ends'
      rw [Except.error.inj (failed'.symm.trans failed)]

/-- Driven over a script to its end, a tokenizer stops for good, and its answers cut the script into
pieces; the elements of the script are those answers, or the fault among them. -/
theorem Tokenizer.drives_partition (script : Bytes) : ∃ last : Tokenizer,
    last.next = (none, last) ∧
    (∀ steps other, (ofScript script).Drives steps other ∧ other.next.1 = none ↔
      steps = tokens script ∧ other = last) ∧
    Partition script (tokens script) last.position ∧
    (∀ read, elements script = .ok read ↔
      (tokens script).map Token.content = read.map Except.ok) ∧
    ∀ fault, elements script = .error fault ↔ ∃ step ∈ tokens script, step.content = .error fault := by
  obtain ⟨last, driven, ends⟩ := answers_tokens script
  refine ⟨last, ends, fun steps other => ⟨fun h => ?_, fun h => ?_⟩, driven.partition,
    fun _ => elements_eq_ok_iff, driven.partition.elements_eq_error_iff⟩
  · obtain ⟨driven', ends'⟩ := h
    exact driven'.unique driven ends' (congrArg Prod.fst ends)
  · obtain ⟨rfl, rfl⟩ := h
    exact ⟨driven, congrArg Prod.fst ends⟩

end SimpleLedger.Script
