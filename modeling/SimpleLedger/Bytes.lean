namespace SimpleLedger

/-- A string of bytes. -/
abbrev Bytes := List UInt8

namespace Bytes

/-- The number whose base-256 digits are the bytes, the lowest first. -/
def littleEndian : Bytes → Nat
  | [] => 0
  | b :: rest => b.toNat + 256 * littleEndian rest

/-- The `width` lowest base-256 digits of a number, the lowest first. -/
def ofLittleEndian : Nat → Nat → Bytes
  | 0, _ => []
  | width + 1, n => UInt8.ofNat n :: ofLittleEndian width (n / 256)

/-- The number whose base-256 digits are the bytes, the highest first. -/
def bigEndian (bytes : Bytes) : Nat :=
  littleEndian bytes.reverse

/-- The `width` lowest base-256 digits of a number, the highest first. -/
def ofBigEndian (width n : Nat) : Bytes :=
  (ofLittleEndian width n).reverse

/-- How many numbers a count of bytes can spell. -/
def span : Nat → Nat
  | 0 => 1
  | width + 1 => 256 * span width

/-- The first `n` bytes and those after them, when there are that many. -/
def split? (n : Nat) (bytes : Bytes) : Option (Bytes × Bytes) :=
  go n [] bytes
where
  go : Nat → Bytes → Bytes → Option (Bytes × Bytes)
    | 0, taken, rest => some (taken.reverse, rest)
    | _ + 1, _, [] => none
    | n + 1, taken, b :: rest => go n (b :: taken) rest

theorem split?_go (n : Nat) (taken bytes : Bytes) :
    split?.go n taken bytes =
      if n ≤ bytes.length then some (taken.reverse ++ bytes.take n, bytes.drop n) else none := by
  induction n generalizing taken bytes with
  | zero => simp [split?.go]
  | succ n ih =>
    cases bytes with
    | nil => simp [split?.go]
    | cons b rest => simp [split?.go, ih]

theorem split?_eq (n : Nat) (bytes : Bytes) :
    split? n bytes = if n ≤ bytes.length then some (bytes.take n, bytes.drop n) else none := by
  simp [split?, split?_go]

theorem split?_eq_some_iff {n : Nat} {bytes taken rest : Bytes} :
    split? n bytes = some (taken, rest) ↔ bytes = taken ++ rest ∧ taken.length = n := by
  rw [split?_eq]
  constructor
  · intro h
    split at h
    next hn =>
      obtain ⟨rfl, rfl⟩ := Prod.mk.inj (Option.some.inj h)
      exact ⟨(List.take_append_drop n bytes).symm, List.length_take_of_le hn⟩
    next => simp at h
  · rintro ⟨rfl, rfl⟩
    simp

@[simp] theorem length_ofLittleEndian (width n : Nat) :
    (ofLittleEndian width n).length = width := by
  induction width generalizing n with
  | zero => rfl
  | succ width ih => simp [ofLittleEndian, ih]

@[simp] theorem length_ofBigEndian (width n : Nat) : (ofBigEndian width n).length = width := by
  simp [ofBigEndian]

theorem littleEndian_ofLittleEndian (width n : Nat) :
    littleEndian (ofLittleEndian width n) = n % span width := by
  induction width generalizing n with
  | zero => simp [ofLittleEndian, littleEndian, span, Nat.mod_one]
  | succ width ih =>
    have low : (UInt8.ofNat n).toNat = n % 256 := by simp
    rw [ofLittleEndian, littleEndian, ih, low, span, Nat.mod_mul]

theorem littleEndian_ofLittleEndian_of_lt {width n : Nat} (h : n < span width) :
    littleEndian (ofLittleEndian width n) = n :=
  (littleEndian_ofLittleEndian width n).trans (Nat.mod_eq_of_lt h)

theorem bigEndian_ofBigEndian (width n : Nat) :
    bigEndian (ofBigEndian width n) = n % span width := by
  simp [bigEndian, ofBigEndian, littleEndian_ofLittleEndian]

theorem littleEndian_lt (bytes : Bytes) : littleEndian bytes < span bytes.length := by
  induction bytes with
  | nil => simp [littleEndian, span]
  | cons b rest ih =>
    have hb := b.toNat_lt
    simp only [littleEndian, List.length_cons, span]
    omega

theorem ofLittleEndian_littleEndian (bytes : Bytes) :
    ofLittleEndian bytes.length (littleEndian bytes) = bytes := by
  induction bytes with
  | nil => rfl
  | cons b rest ih =>
    have hb := b.toNat_lt
    have hlow : UInt8.ofNat (b.toNat + 256 * littleEndian rest) = b := by
      apply UInt8.toNat_inj.mp
      rw [UInt8.toNat_ofNat']
      omega
    have hhigh : (b.toNat + 256 * littleEndian rest) / 256 = littleEndian rest := by omega
    simp only [List.length_cons, littleEndian, ofLittleEndian, hlow, hhigh, ih]

theorem bigEndian_lt (bytes : Bytes) : bigEndian bytes < span bytes.length := by
  simpa [bigEndian] using littleEndian_lt bytes.reverse

theorem ofBigEndian_bigEndian (bytes : Bytes) :
    ofBigEndian bytes.length (bigEndian bytes) = bytes := by
  have h := ofLittleEndian_littleEndian bytes.reverse
  rw [List.length_reverse] at h
  simp [ofBigEndian, bigEndian, h]

end Bytes

end SimpleLedger
