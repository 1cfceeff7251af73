import SimpleLedger.Script.Element

namespace SimpleLedger.Script

/-- The bytes that can announce a push of some length. -/
inductive Header : Nat → Bytes → Prop
  | direct {length : Nat} : 1 ≤ length → length ≤ 75 → Header length [UInt8.ofNat length]
  | one {length : Nat} : length ≤ 255 → Header length [0x4c, UInt8.ofNat length]
  | two {length : Nat} : length ≤ 65535 → Header length (0x4d :: Bytes.ofLittleEndian 2 length)
  | four {length : Nat} : length < 0x100000000 →
    Header length (0x4e :: Bytes.ofLittleEndian 4 length)

/-- The bytes that can push some data. -/
def Spelling (data spelling : Bytes) : Prop :=
  ∃ header, Header data.length header ∧ spelling = header ++ data

/-- The bytes that can push some fields, one after the other and with nothing between them. -/
inductive Pushes : List Bytes → Bytes → Prop
  | nil : Pushes [] []
  | cons {field spelling bytes : Bytes} {fields : List Bytes} :
    Spelling field spelling → Pushes fields bytes → Pushes (field :: fields) (spelling ++ bytes)

theorem announce_ofNat {length : Nat} (positive : 1 ≤ length) (short : length ≤ 75) :
    announce (UInt8.ofNat length) = .direct length := by
  have value : (UInt8.ofNat length).toNat = length :=
    UInt8.toNat_ofNat_of_lt' (Nat.lt_of_le_of_lt short (by decide))
  have low : (0x01 : UInt8) ≤ UInt8.ofNat length := by
    rw [UInt8.le_iff_toNat_le, value]
    exact positive
  have high : UInt8.ofNat length ≤ 0x4b := by
    rw [UInt8.le_iff_toNat_le, value]
    exact short
  simp [announce, low, high, value]

theorem announce_direct {opcode : UInt8} {length : Nat} (h : announce opcode = .direct length) :
    opcode = UInt8.ofNat length ∧ 1 ≤ length ∧ length ≤ 75 := by
  unfold announce at h
  split at h
  next bounds =>
    cases Announcement.direct.inj h
    exact ⟨UInt8.ofNat_toNat.symm, UInt8.le_iff_toNat_le.mp bounds.1,
      UInt8.le_iff_toNat_le.mp bounds.2⟩
  next => repeat' split at h <;> try cases h

theorem announce_counted {opcode : UInt8} {width : Nat} (h : announce opcode = .counted width) :
    opcode = 0x4c ∧ width = 1 ∨ opcode = 0x4d ∧ width = 2 ∨ opcode = 0x4e ∧ width = 4 := by
  unfold announce at h
  split at h
  next => cases h
  next =>
    split at h
    next code => exact .inl ⟨code, (Announcement.counted.inj h).symm⟩
    next =>
      split at h
      next code => exact .inr (.inl ⟨code, (Announcement.counted.inj h).symm⟩)
      next =>
        split at h
        next code => exact .inr (.inr ⟨code, (Announcement.counted.inj h).symm⟩)
        next => cases h

/-- What the opcode of a header announces, and what its other bytes count. -/
theorem header_iff_announce {length : Nat} {opcode : UInt8} {count : Bytes} :
    Header length (opcode :: count) ↔
      announce opcode = .direct length ∧ count = [] ∨
        announce opcode = .counted count.length ∧ Bytes.littleEndian count = length := by
  constructor
  · intro h
    cases h with
    | direct positive short => exact .inl ⟨announce_ofNat positive short, rfl⟩
    | one bound =>
      have value : Bytes.littleEndian (Bytes.ofLittleEndian 1 length) = length :=
        Bytes.littleEndian_ofLittleEndian_of_lt (by simp only [Bytes.span]; omega)
      exact .inr ⟨rfl, value⟩
    | two bound =>
      exact .inr ⟨rfl, Bytes.littleEndian_ofLittleEndian_of_lt (by simp only [Bytes.span]; omega)⟩
    | four bound =>
      exact .inr ⟨rfl, Bytes.littleEndian_ofLittleEndian_of_lt (by simp only [Bytes.span]; omega)⟩
  · intro h
    rcases h with ⟨direct, rfl⟩ | ⟨counted, value⟩
    · obtain ⟨rfl, positive, short⟩ := announce_direct direct
      exact .direct positive short
    · have bound := Bytes.littleEndian_lt count
      have digits := Bytes.ofLittleEndian_littleEndian count
      rw [value] at bound digits
      rcases announce_counted counted with ⟨rfl, width⟩ | ⟨rfl, width⟩ | ⟨rfl, width⟩ <;>
        rw [width] at bound digits <;> rw [← digits] <;> simp only [Bytes.span] at bound
      · exact .one (by omega)
      · exact .two (by omega)
      · exact .four (by omega)

theorem Header.ne_nil {length : Nat} {header : Bytes} (h : Header length header) : header ≠ [] := by
  cases h <;> simp

theorem Header.length_lt {length : Nat} {header : Bytes} (h : Header length header) :
    length < 0x100000000 := by
  cases h <;> omega

theorem Spelling.length_lt {data spelling : Bytes} (h : Spelling data spelling) :
    data.length < 0x100000000 := by
  obtain ⟨_, header, _⟩ := h
  exact header.length_lt

theorem Spelling.ne_nil {data spelling : Bytes} (h : Spelling data spelling) : spelling ≠ [] := by
  obtain ⟨_, header, rfl⟩ := h
  simp [header.ne_nil]

theorem Pushes.length_lt {fields : List Bytes} {bytes : Bytes} (h : Pushes fields bytes) :
    ∀ field ∈ fields, field.length < 0x100000000 := by
  induction h with
  | nil => simp
  | cons spelled _ ih =>
    intro field hm
    rcases List.mem_cons.mp hm with rfl | hm
    · exact spelled.length_lt
    · exact ih field hm

end SimpleLedger.Script
