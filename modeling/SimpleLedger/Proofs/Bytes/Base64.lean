import SimpleLedger.Bytes.Base64

namespace SimpleLedger.Base64

/-- The number that a letter of the alphabet stands for. -/
def value? (c : Char) : Option Nat :=
  if 'A' ≤ c ∧ c ≤ 'Z' then some (c.toNat - 65)
  else if 'a' ≤ c ∧ c ≤ 'z' then some (c.toNat - 97 + 26)
  else if '0' ≤ c ∧ c ≤ '9' then some (c.toNat - 48 + 52)
  else if c = '+' then some 62
  else if c = '/' then some 63
  else none

/-- The bytes that a text stands for: three for every four letters. Padding fills up the last four,
and the bits that it leaves over must be zero. -/
def decode? : List Char → Option Bytes
  | [] => some []
  | [a, b, '=', '='] => do
    let a ← value? a
    let b ← value? b
    if b % 16 = 0 then some [UInt8.ofNat (4 * a + b / 16)] else none
  | [a, b, c, '='] => do
    let a ← value? a
    let b ← value? b
    let c ← value? c
    if c % 4 = 0 then some [UInt8.ofNat (4 * a + b / 16), UInt8.ofNat (b % 16 * 16 + c / 4)]
    else none
  | a :: b :: c :: d :: rest => do
    let a ← value? a
    let b ← value? b
    let c ← value? c
    let d ← value? d
    let bytes ← decode? rest
    some (UInt8.ofNat (4 * a + b / 16) :: UInt8.ofNat (b % 16 * 16 + c / 4) ::
      UInt8.ofNat (c % 4 * 64 + d) :: bytes)
  | _ => none

theorem value?_letter : ∀ n < 64, value? (letter n) = some n := by
  decide

theorem letter_ne_padding {n : Nat} (bound : n < 64) : letter n ≠ '=' := by
  intro same
  have value := value?_letter n bound
  rw [same] at value
  cases value

theorem decode?_letters (bytes : Bytes) : decode? (letters bytes) = some bytes := by
  have byte {n : Nat} {b : UInt8} (same : n = b.toNat) : UInt8.ofNat n = b := by
    rw [same, UInt8.ofNat_toNat]
  fun_induction letters bytes with
  | case1 => rfl
  | case2 a =>
    have := a.toNat_lt
    rw [decode?, value?_letter _ (by omega), value?_letter _ (by omega)]
    show (if a.toNat % 4 * 16 % 16 = 0 then
      some [UInt8.ofNat (4 * (a.toNat / 4) + a.toNat % 4 * 16 / 16)] else none) = some [a]
    rw [if_pos (by omega), @byte _ a (by omega)]
  | case3 a b =>
    have := a.toNat_lt
    have := b.toNat_lt
    rw [decode?, value?_letter _ (by omega), value?_letter _ (by omega), value?_letter _ (by omega)]
    · show (if b.toNat % 16 * 4 % 4 = 0 then
        some [UInt8.ofNat (4 * (a.toNat / 4) + (a.toNat % 4 * 16 + b.toNat / 16) / 16),
          UInt8.ofNat ((a.toNat % 4 * 16 + b.toNat / 16) % 16 * 16 + b.toNat % 16 * 4 / 4)]
        else none) = some [a, b]
      rw [if_pos (by omega), @byte _ a (by omega), @byte _ b (by omega)]
    · exact letter_ne_padding (by omega)
  | case4 a b c rest ih =>
    have := a.toNat_lt
    have := b.toNat_lt
    have := c.toNat_lt
    have unpadded := @letter_ne_padding (c.toNat % 64) (by omega)
    rw [decode?, value?_letter _ (by omega), value?_letter _ (by omega), value?_letter _ (by omega),
      value?_letter _ (by omega), ih]
    · show some (UInt8.ofNat (4 * (a.toNat / 4) + (a.toNat % 4 * 16 + b.toNat / 16) / 16) ::
        UInt8.ofNat ((a.toNat % 4 * 16 + b.toNat / 16) % 16 * 16 +
          (b.toNat % 16 * 4 + c.toNat / 64) / 4) ::
        UInt8.ofNat ((b.toNat % 16 * 4 + c.toNat / 64) % 4 * 64 + c.toNat % 64) :: rest) = _
      rw [@byte _ a (by omega), @byte _ b (by omega), @byte _ c (by omega)]
    · exact fun _ last _ => unpadded last
    · exact fun last _ => unpadded last

end SimpleLedger.Base64
