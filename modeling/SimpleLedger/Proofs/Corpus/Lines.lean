import SimpleLedger.Corpus.Sampling
import SimpleLedger.Proofs.Text.Utf8

namespace SimpleLedger.Corpus

/-- The code of a hexadecimal digit of either case. -/
def IsHexCode (code : Nat) : Prop :=
  (48 ≤ code ∧ code ≤ 57) ∨ (65 ≤ code ∧ code ≤ 70) ∨ (97 ≤ code ∧ code ≤ 102)

theorem IsHexCode.lt {code : Nat} (h : IsHexCode code) : code < 128 := by
  unfold IsHexCode at h
  omega

theorem isTxid_iff {id : String} :
    isTxid id ↔ id.toList.length = 64 ∧ ∀ c ∈ id.toList, IsHexCode c.toNat := by
  have digit (c : Char) : (c.isDigit || ('a' ≤ c && c ≤ 'f') || ('A' ≤ c && c ≤ 'F')) = true ↔
      IsHexCode c.toNat := by
    simp only [Char.isDigit, Char.le_def, UInt32.le_iff_toNat_le, Bool.or_eq_true, Bool.and_eq_true,
      decide_eq_true_eq, ge_iff_le]
    constructor
    · rintro ((decimal | lower) | upper)
      · exact .inl decimal
      · exact .inr (.inr lower)
      · exact .inr (.inl upper)
    · rintro (decimal | upper | lower)
      · exact .inl (.inl decimal)
      · exact .inr upper
      · exact .inl (.inr lower)
  simp only [isTxid, Bool.and_eq_true, beq_iff_eq, List.all_eq_true, digit]

/-- Each id on a line of its own. -/
def lines (ids : List String) : List Char :=
  ids.flatMap fun id => id.toList ++ ['\n']

@[simp] theorem lines_nil : lines [] = [] :=
  rfl

theorem lines_cons (id : String) (ids : List String) :
    lines (id :: ids) = id.toList ++ '\n' :: lines ids := by
  simp [lines]

theorem lines_append (ids more : List String) : lines (ids ++ more) = lines ids ++ lines more :=
  List.flatMap_append

theorem length_lines {ids : List String} (h : ∀ id ∈ ids, isTxid id) :
    (lines ids).length = 65 * ids.length := by
  induction ids with
  | nil => rfl
  | cons id ids ih =>
    obtain ⟨first, rest⟩ := List.forall_mem_cons.mp h
    have size := (isTxid_iff.mp first).1
    have others := ih rest
    simp only [lines_cons, List.length_append, List.length_cons]
    omega

theorem isAscii_of_isTxid {id : String} (h : isTxid id) : Text.IsAscii id.toList :=
  fun c mem => ((isTxid_iff.mp h).2 c mem).lt

theorem isAscii_lines {ids : List String} (h : ∀ id ∈ ids, isTxid id) :
    Text.IsAscii (lines ids) := by
  intro c mem
  obtain ⟨id, inside, mem⟩ := List.mem_flatMap.mp mem
  rcases List.mem_append.mp mem with digit | newline
  · exact isAscii_of_isTxid (h id inside) c digit
  · obtain rfl := List.mem_singleton.mp newline
    decide

theorem length_utf8_lines {ids : List String} (h : ∀ id ∈ ids, isTxid id) :
    (Text.utf8 (lines ids)).length = 65 * ids.length := by
  rw [Text.utf8_of_isAscii (isAscii_lines h), List.length_map, length_lines h]

theorem length_utf8_of_isTxid {id : String} (h : isTxid id) :
    (Text.utf8 id.toList).length = 64 := by
  rw [Text.utf8_of_isAscii (isAscii_of_isTxid h), List.length_map, (isTxid_iff.mp h).1]

theorem isHexCode_of_mem_utf8 {id : String} (h : isTxid id) {b : UInt8}
    (mem : b ∈ Text.utf8 id.toList) : IsHexCode b.toNat := by
  rw [Text.utf8_of_isAscii (isAscii_of_isTxid h)] at mem
  obtain ⟨c, inside, rfl⟩ := List.mem_map.mp mem
  have code := (isTxid_iff.mp h).2 c inside
  have small := code.lt
  rwa [UInt8.toNat_ofNat_of_lt' (by simp only [UInt8.size]; omega)]

theorem utf8_lines_cons {id : String} (ids : List String) :
    Text.utf8 (lines (id :: ids)) = Text.utf8 id.toList ++ 0x0a :: Text.utf8 (lines ids) := by
  rw [lines_cons, Text.utf8_append]
  rfl

/-- The lines of an output that a newline ends. -/
def completeLines (bytes : Bytes) : List Bytes :=
  (bytes.splitOn 0x0a).dropLast

theorem completeLines_of_not_mem {bytes : Bytes} (h : 0x0a ∉ bytes) : completeLines bytes = [] := by
  rw [completeLines, List.splitOn_eq_singleton h]
  rfl

theorem completeLines_append {line : Bytes} (h : 0x0a ∉ line) (rest : Bytes) :
    completeLines (line ++ 0x0a :: rest) = line :: completeLines rest := by
  rw [completeLines, List.splitOn_append_cons_self_of_not_mem h,
    List.dropLast_cons_of_ne_nil (List.splitOn_ne_nil _ _), completeLines]

/-- However much has been written of the lines of some ids, the complete ones are the first ids. -/
theorem completeLines_prefix {ids : List String} (h : ∀ id ∈ ids, isTxid id) {output : Bytes}
    (part : output <+: Text.utf8 (lines ids)) :
    completeLines output <+: ids.map fun id => Text.utf8 id.toList := by
  induction ids generalizing output with
  | nil =>
    obtain rfl := List.prefix_nil.mp part
    exact List.nil_prefix
  | cons id ids ih =>
    obtain ⟨first, others⟩ := List.forall_mem_cons.mp h
    have unbroken : (0x0a : UInt8) ∉ Text.utf8 id.toList := by
      intro newline
      have code : IsHexCode 0x0a := isHexCode_of_mem_utf8 first newline
      unfold IsHexCode at code
      omega
    rw [utf8_lines_cons] at part
    -- the output either ends within the first line or goes on from its end
    rcases List.prefix_or_prefix_of_prefix part (List.prefix_append _ _) with within | ⟨rest, rfl⟩
    · have none : (0x0a : UInt8) ∉ output := fun newline => unbroken (within.subset newline)
      rw [completeLines_of_not_mem none]
      exact List.nil_prefix
    · rw [List.prefix_append_right_inj] at part
      rcases List.prefix_cons_iff.mp part with rfl | ⟨rest, rfl, after⟩
      · rw [List.append_nil, completeLines_of_not_mem unbroken]
        exact List.nil_prefix
      · rw [completeLines_append unbroken, List.map_cons, List.prefix_cons_inj]
        exact ih others after

namespace Sink

/-- A sink that has taken the lines of some ids. -/
def after (ids : List String) (sink : Sink) : Sink :=
  { written := sink.written ++ String.ofList (lines ids)
    room := sink.room.map (· - 65 * ids.length) }

theorem fits_or_over (size : Nat) (sink : Sink) :
    (∀ r ∈ sink.room, size ≤ r) ∨ ∃ r, sink.room = some r ∧ r < size := by
  obtain ⟨_, _ | room⟩ := sink
  · simp
  · simpa using Nat.lt_or_ge room size |>.symm

theorem write_boundless (text written : String) :
    write text ⟨written, none⟩ = (true, ⟨written ++ text, none⟩) :=
  rfl

theorem write_of_le {text written : String} {room : Nat} (fits : text.toList.length ≤ room) :
    write text ⟨written, some room⟩ =
      (true, ⟨written ++ text, some (room - text.toList.length)⟩) :=
  if_pos fits

theorem write_of_lt {text written : String} {room : Nat} (short : room < text.toList.length) :
    write text ⟨written, some room⟩ =
      (false, ⟨written ++ String.ofList (text.toList.take room), some 0⟩) :=
  if_neg (Nat.not_le.mpr short)

/-- A text is written as its parts are, up to the first part that does not fit. -/
theorem write_append (text rest : String) (sink : Sink) :
    sink.write (text ++ rest) =
      match sink.write text with
      | (true, sink) => sink.write rest
      | (false, sink) => (false, sink) := by
  have sizes : (text ++ rest).toList.length = text.toList.length + rest.toList.length := by
    rw [String.toList_append, List.length_append]
  obtain ⟨written, _ | room⟩ := sink
  · simp only [write_boundless, String.append_assoc]
  · by_cases first : text.toList.length ≤ room
    · rw [write_of_le first]
      dsimp only
      by_cases second : rest.toList.length ≤ room - text.toList.length
      · have both : (text ++ rest).toList.length ≤ room := by omega
        rw [write_of_le both, write_of_le second, sizes, Nat.sub_add_eq, String.append_assoc]
      · have short : room < (text ++ rest).toList.length := by omega
        rw [write_of_lt short, write_of_lt (Nat.not_le.mp second), String.toList_append,
          List.take_append, List.take_of_length_le first, String.ofList_append,
          String.ofList_toList, String.append_assoc]
    · have short : room < (text ++ rest).toList.length := by omega
      have nothing : room - text.toList.length = 0 := by omega
      rw [write_of_lt short, write_of_lt (Nat.not_le.mp first), String.toList_append,
        List.take_append, nothing, List.take_zero, List.append_nil]

/-- Lines are written one after the other as if they were one text. -/
theorem writeLines_eq_write (ids : List String) (sink : Sink) :
    sink.writeLines ids = sink.write (String.ofList (lines ids)) := by
  induction ids generalizing sink with
  | nil =>
    obtain ⟨written, _ | room⟩ := sink
    · simp [writeLines, write]
    · simp [writeLines, write]
  | cons id ids ih =>
    have parts : String.ofList (lines (id :: ids)) = (id ++ "\n") ++ String.ofList (lines ids) := by
      rw [← String.toList_inj]
      simp [lines_cons]
    rw [parts, write_append, writeLines]
    cases sink.write (id ++ "\n") with
    | mk whole sink =>
      cases whole with
      | true => exact ih sink
      | false => rfl

theorem writeLines_of_fits {ids : List String} (h : ∀ id ∈ ids, isTxid id) {sink : Sink}
    (fits : ∀ room ∈ sink.room, 65 * ids.length ≤ room) :
    sink.writeLines ids = (true, sink.after ids) := by
  have chars : (String.ofList (lines ids)).toList.length = 65 * ids.length := by
    rw [String.toList_ofList, length_lines h]
  rw [writeLines_eq_write]
  obtain ⟨written, _ | room⟩ := sink
  · exact write_boundless _ _
  · rw [write_of_le (by simpa only [chars] using fits room rfl), chars]
    rfl

theorem writeLines_of_over {ids : List String} (h : ∀ id ∈ ids, isTxid id) {written : String}
    {room : Nat} (short : room < 65 * ids.length) :
    writeLines ids ⟨written, some room⟩ =
      (false, ⟨written ++ String.ofList ((lines ids).take room), some 0⟩) := by
  rw [writeLines_eq_write, write_of_lt (by rwa [String.toList_ofList, length_lines h]),
    String.toList_ofList]

end Sink

end SimpleLedger.Corpus
