import SimpleLedger.Proofs.Script.Concatenation
import SimpleLedger.Proofs.Script.Shortest

namespace SimpleLedger.Script

variable {buffer bytes data : Bytes} {read : List Element}

theorem tokensFrom_eq_nil_iff {start : Nat} : tokensFrom start [] bytes = [] ↔ bytes = [] := by
  cases bytes with
  | nil => simp [tokensFrom_nil]
  | cons opcode bytes => simp [tokensFrom_cut rfl]

/-- Only the spellings of a push are read as that push and nothing else. -/
theorem elements_eq_push_iff : elements bytes = .ok [.push data] ↔ Spelling data bytes := by
  rw [elements_eq_ok_iff]
  constructor
  · intro h
    obtain ⟨token, single, content⟩ := List.map_eq_singleton_iff.mp h
    obtain ⟨rest, cut, after⟩ := tokensFrom_eq_cons single
    obtain ⟨covered, spelled, rfl, _⟩ := cut.covered content
    rw [tokensFrom_eq_nil_iff.mp after.symm, List.append_nil]
    cases spelled with
    | push spelled => exact spelled
  · intro spelled
    have cut := Element.Spelled.cut (.push spelled) 0 []
    rw [List.append_nil] at cut
    rw [tokens, cut.tokensFrom_eq, tokensFrom_nil]
    rfl

/-- The same holds after bytes that can be read. -/
theorem elements_append_eq_push_iff (h : elements buffer = .ok read) :
    elements (buffer ++ bytes) = .ok (read ++ [.push data]) ↔ Spelling data bytes := by
  rw [← elements_eq_push_iff, elements_append h]
  cases elements bytes <;> simp [Except.mapError, Except.map]

theorem pushHeader_head?_ne_zero (length : Nat) : (pushHeader length).head? ≠ some 0x00 := by
  unfold pushHeader
  split
  next short =>
    intro zero
    have value : (UInt8.ofNat length).toNat = length :=
      UInt8.toNat_ofNat_of_lt' (Nat.lt_of_le_of_lt short.2 (by decide))
    rw [Option.some.inj zero] at value
    have : (0x00 : UInt8).toNat = 0 := rfl
    omega
  next =>
    repeat' split
    all_goals simp

/-- A written push keeps what stands before it and ends in its data. It is read back up to the length
that a count of four bytes holds and no further, and its announcement, which never begins with `0x00`,
is the one shortest of all that are read so. -/
theorem push_read_back (h : elements buffer = .ok read) (data : Bytes) :
    buffer <+: buffer ++ push data ∧ data <:+ buffer ++ push data ∧
      (elements (buffer ++ push data) = .ok (read ++ [.push data]) ↔
        data.length < 0x100000000) ∧
      (data.length < 0x100000000 → ∃ header, push data = header ++ data ∧
        header.head? ≠ some 0x00 ∧
        ∀ other, elements (buffer ++ (other ++ data)) = .ok (read ++ [.push data]) →
          header.length ≤ other.length ∧ (other.length = header.length → other = header)) := by
  have ends : data <:+ push data := List.suffix_append (pushHeader data.length) data
  refine ⟨List.prefix_append _ _, ends.trans (List.suffix_append _ _), ?_, fun _ => ?_⟩
  · rw [elements_append_eq_push_iff h]
    exact ⟨Spelling.length_lt, spelling_push⟩
  · refine ⟨pushHeader data.length, rfl, pushHeader_head?_ne_zero data.length, ?_⟩
    intro other readable
    obtain ⟨header, announced, same⟩ := (elements_append_eq_push_iff h).mp readable
    obtain rfl := List.append_cancel_right same
    refine ⟨announced.pushHeader_length_le, fun short => ?_⟩
    exact announced.eq_of_length_eq (header_pushHeader announced.length_lt) short

/-- Data of 76 bytes are read back behind a count, and data of `2 ^ 32` bytes are not. -/
theorem push_read_back_of_bounds :
    elements [0x6a, 0x4d, 0x00, 0x00] = .ok [.op 0x6a, .push []] ∧
    elements ([0x6a, 0x4d, 0x00, 0x00] ++ 0x4c :: 0x4c :: List.replicate 76 0xaa) =
      .ok [.op 0x6a, .push [], .push (List.replicate 76 0xaa)] ∧
    elements ([0x6a, 0x4d, 0x00, 0x00] ++ push (List.replicate 0x100000000 0xaa)) ≠
      .ok [.op 0x6a, .push [], .push (List.replicate 0x100000000 0xaa)] := by
  have first : elements [0x6a, 0x4d, 0x00, 0x00] = .ok [.op 0x6a, .push []] := by decide +kernel
  obtain ⟨_, _, short, _⟩ := push_read_back first (List.replicate 76 0xaa)
  obtain ⟨_, _, long, _⟩ := push_read_back first (List.replicate 0x100000000 0xaa)
  rw [List.length_replicate] at short long
  exact ⟨first, short.mpr (by decide), fun readable => absurd (long.mp readable) (by decide)⟩

end SimpleLedger.Script
