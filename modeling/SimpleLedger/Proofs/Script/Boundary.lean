import SimpleLedger.Proofs.Script.Spelling

namespace SimpleLedger.Script

theorem announce_bare_iff {code : UInt8} :
    announce code = .bare ↔ ¬ (0x01 ≤ code ∧ code ≤ 0x4e) := by
  constructor
  · intro bare inside
    have low : 1 ≤ code.toNat := UInt8.le_iff_toNat_le.mp inside.1
    have high : code.toNat ≤ 78 := UInt8.le_iff_toNat_le.mp inside.2
    by_cases direct : code.toNat ≤ 75
    · have announced := announce_ofNat low direct
      rw [UInt8.ofNat_toNat, bare] at announced
      cases announced
    · have counted : code.toNat = 76 ∨ code.toNat = 77 ∨ code.toNat = 78 := by omega
      rcases counted with value | value | value
      · rw [show code = 0x4c from UInt8.toNat_inj.mp value] at bare
        cases bare
      · rw [show code = 0x4d from UInt8.toNat_inj.mp value] at bare
        cases bare
      · rw [show code = 0x4e from UInt8.toNat_inj.mp value] at bare
        cases bare
  · intro outside
    have notDirect : ¬ (0x01 ≤ code ∧ code ≤ 0x4b) :=
      fun direct => outside ⟨direct.1, UInt8.le_trans direct.2 (by decide)⟩
    have notCounted : code ≠ 0x4c ∧ code ≠ 0x4d ∧ code ≠ 0x4e := by
      refine ⟨?_, ?_, ?_⟩ <;>
      · rintro rfl
        exact outside (by decide)
    rw [announce, if_neg notDirect, if_neg notCounted.1, if_neg notCounted.2.1,
      if_neg notCounted.2.2]

theorem announce_counted_iff {code : UInt8} {width : Nat} : announce code = .counted width ↔
    (code, width) ∈ [((0x4c : UInt8), 1), (0x4d, 2), (0x4e, 4)] := by
  simp only [List.mem_cons, Prod.mk.injEq, List.not_mem_nil, or_false]
  constructor
  · exact announce_counted
  · intro h
    rcases h with ⟨rfl, rfl⟩ | ⟨rfl, rfl⟩ | ⟨rfl, rfl⟩ <;> rfl

/-- No header is the beginning of another. -/
theorem Header.append_inj {length length' : Nat} {header header' rest rest' : Bytes}
    (h : Header length header) (h' : Header length' header')
    (eq : header ++ rest = header' ++ rest') :
    length = length' ∧ header = header' ∧ rest = rest' := by
  obtain ⟨opcode, count, rfl⟩ := List.exists_cons_of_ne_nil h.ne_nil
  obtain ⟨opcode', count', rfl⟩ := List.exists_cons_of_ne_nil h'.ne_nil
  obtain ⟨rfl, tails⟩ := List.cons.inj eq
  rcases header_iff_announce.mp h with ⟨direct, rfl⟩ | ⟨counted, rfl⟩
  · rcases header_iff_announce.mp h' with ⟨direct', rfl⟩ | ⟨counted', rfl⟩
    · have same := Announcement.direct.inj (direct.symm.trans direct')
      exact ⟨same, rfl, tails⟩
    · rw [direct] at counted'
      cases counted'
  · rcases header_iff_announce.mp h' with ⟨direct', rfl⟩ | ⟨counted', rfl⟩
    · rw [counted] at direct'
      cases direct'
    · have same := Announcement.counted.inj (counted.symm.trans counted')
      obtain ⟨rfl, rfl⟩ := List.append_inj tails same
      exact ⟨rfl, rfl, rfl⟩

theorem Spelling.append_inj {data data' spelling spelling' rest rest' : Bytes}
    (h : Spelling data spelling) (h' : Spelling data' spelling')
    (eq : spelling ++ rest = spelling' ++ rest') :
    data = data' ∧ spelling = spelling' ∧ rest = rest' := by
  obtain ⟨header, announced, rfl⟩ := h
  obtain ⟨header', announced', rfl⟩ := h'
  rw [List.append_assoc, List.append_assoc] at eq
  obtain ⟨lengths, rfl, tails⟩ := announced.append_inj announced' eq
  obtain ⟨rfl, rfl⟩ := List.append_inj tails lengths
  exact ⟨rfl, rfl, rfl⟩

/-- A complete push begins the bytes. -/
def BeginsPush (bytes : Bytes) : Prop :=
  ∃ data spelling, Spelling data spelling ∧ spelling <+: bytes

theorem Pushes.append {fields others : List Bytes} {bytes rest : Bytes} (h : Pushes fields bytes)
    (ho : Pushes others rest) : Pushes (fields ++ others) (bytes ++ rest) := by
  induction h with
  | nil => exact ho
  | cons spelled _ ih =>
    rw [List.cons_append, List.append_assoc]
    exact .cons spelled ih

theorem Pushes.eq_nil_or_cons {fields : List Bytes} {bytes : Bytes} (h : Pushes fields bytes) :
    (fields = [] ∧ bytes = []) ∨ ∃ field spelling others rest, fields = field :: others ∧
      bytes = spelling ++ rest ∧ Spelling field spelling ∧ Pushes others rest := by
  cases h with
  | nil => exact .inl ⟨rfl, rfl⟩
  | cons spelled others => exact .inr ⟨_, _, _, _, rfl, rfl, spelled, others⟩

theorem Pushes.beginsPush {fields : List Bytes} {bytes : Bytes} (h : Pushes fields bytes)
    (nonempty : bytes ≠ []) : BeginsPush bytes := by
  rcases h.eq_nil_or_cons with ⟨_, empty⟩ | ⟨field, spelling, _, rest, _, rfl, spelled, _⟩
  · exact absurd empty nonempty
  · exact ⟨field, spelling, spelled, List.prefix_append spelling rest⟩

/-- Complete pushes at the front of complete pushes leave complete pushes. -/
theorem Pushes.of_append {fields all : List Bytes} {bytes rest : Bytes} (h : Pushes fields bytes)
    (ha : Pushes all (bytes ++ rest)) : ∃ others, all = fields ++ others ∧ Pushes others rest := by
  induction h generalizing all with
  | nil => exact ⟨all, rfl, ha⟩
  | @cons field spelling bytes fields spelled _ ih =>
    rw [List.append_assoc] at ha
    rcases ha.eq_nil_or_cons with ⟨_, empty⟩ | ⟨_, _, after, _, rfl, eq, spelled', following⟩
    · exact absurd (List.append_eq_nil_iff.mp empty).1 spelled.ne_nil
    · obtain ⟨rfl, rfl, rfl⟩ := spelled.append_inj spelled' eq
      obtain ⟨others, rfl, ho⟩ := ih following
      exact ⟨others, rfl, ho⟩

theorem BeginsPush.append {bytes : Bytes} (h : BeginsPush bytes) (rest : Bytes) :
    BeginsPush (bytes ++ rest) := by
  obtain ⟨data, spelling, spelled, before⟩ := h
  exact ⟨data, spelling, spelled, before.trans (List.prefix_append bytes rest)⟩

/-- Complete pushes do not lead past an offset where none begins. -/
theorem Pushes.not_past {fields all : List Bytes} {bytes more rest : Bytes}
    (h : Pushes fields bytes) (ha : Pushes all (bytes ++ more))
    (stuck : ¬ BeginsPush (more ++ rest)) : more = [] := by
  obtain ⟨_, _, others⟩ := h.of_append ha
  by_cases empty : more = []
  · exact empty
  · exact absurd ((others.beginsPush empty).append rest) stuck

/-- Complete pushes lead to the end of any bytes, or to a byte where none begins. -/
theorem exists_pushes (bytes : Bytes) : ∃ fields pushed rest, bytes = pushed ++ rest ∧
    Pushes fields pushed ∧ (rest = [] ∨ ¬ BeginsPush rest) := by
  induction hn : bytes.length using Nat.strongRecOn generalizing bytes with
  | ind n ih =>
    by_cases begins : BeginsPush bytes
    · obtain ⟨data, spelling, spelled, after, rfl⟩ := begins
      have positive : 0 < spelling.length := List.length_pos_iff.mpr spelled.ne_nil
      have shorter : after.length < n := by
        rw [List.length_append] at hn
        omega
      obtain ⟨fields, pushed, rest, rfl, pushes, ends⟩ := ih _ shorter after rfl
      exact ⟨data :: fields, spelling ++ pushed, rest, (List.append_assoc ..).symm,
        .cons spelled pushes, ends⟩
    · exact ⟨[], [], bytes, rfl, .nil, .inr begins⟩

end SimpleLedger.Script
