import SimpleLedger.Text.Numeral

namespace SimpleLedger.Text

theorem takeWhile_append_stop {p : Char → Bool} {run text : List Char} (all : ∀ c ∈ run, p c)
    (stop : ∀ c ∈ text.head?, p c = false) : (run ++ text).takeWhile p = run := by
  rw [List.takeWhile_append_of_pos all]
  cases text with
  | nil => simp
  | cons c text => simp [stop c rfl]

theorem dropWhile_append_stop {p : Char → Bool} {run text : List Char} (all : ∀ c ∈ run, p c)
    (stop : ∀ c ∈ text.head?, p c = false) : (run ++ text).dropWhile p = text := by
  rw [List.dropWhile_append_of_pos all]
  cases text with
  | nil => rfl
  | cons c text => rw [List.dropWhile_cons_of_neg (by simp [stop c rfl])]

/-- Two texts that begin with runs of characters of one class part after the same run. -/
theorem run_append_inj {p : Char → Bool} {run run' text text' : List Char}
    (all : ∀ c ∈ run, p c) (all' : ∀ c ∈ run', p c)
    (stop : ∀ c ∈ text.head?, p c = false) (stop' : ∀ c ∈ text'.head?, p c = false)
    (h : run ++ text = run' ++ text') : run = run' ∧ text = text' := by
  have same : run = run' := by
    rw [← takeWhile_append_stop all stop, h, takeWhile_append_stop all' stop']
  subst same
  exact ⟨rfl, List.append_cancel_left h⟩

theorem toList_toString (n : Nat) : (toString n).toList = Nat.toDigits 10 n :=
  Nat.toList_repr

theorem digitChar_inj {n m : Nat} (low : n < 16) (low' : m < 16) :
    Nat.digitChar n = Nat.digitChar m ↔ n = m := by
  have apart : ∀ n < 16, ∀ m < 16, Nat.digitChar n = Nat.digitChar m → n = m := by decide
  exact ⟨apart n low m low', congrArg Nat.digitChar⟩

theorem toDigits_inj {base n m : Nat} (least : 1 < base) (most : base ≤ 16) :
    Nat.toDigits base n = Nat.toDigits base m ↔ n = m := by
  refine ⟨fun h => ?_, congrArg (Nat.toDigits base)⟩
  -- the last digit is split off both, and the quotients are smaller
  induction n using Nat.strongRecOn generalizing m with
  | ind n ih =>
    have last (k : Nat) : k % base < 16 := Nat.lt_of_lt_of_le (Nat.mod_lt k (by omega)) most
    rcases Nat.lt_or_ge n base with small | large <;>
      rcases Nat.lt_or_ge m base with small' | large'
    · rw [Nat.toDigits_of_lt_base small, Nat.toDigits_of_lt_base small'] at h
      exact (digitChar_inj (by omega) (by omega)).mp (List.singleton_inj.mp h)
    · rw [Nat.toDigits_of_lt_base small, Nat.toDigits_of_base_le least large'] at h
      exact absurd (List.append_eq_singleton_iff.mp h.symm) (by simp [Nat.toDigits_ne_nil])
    · rw [Nat.toDigits_of_lt_base small', Nat.toDigits_of_base_le least large] at h
      exact absurd (List.append_eq_singleton_iff.mp h) (by simp [Nat.toDigits_ne_nil])
    · rw [Nat.toDigits_of_base_le least large, Nat.toDigits_of_base_le least large'] at h
      obtain ⟨front, digit⟩ := List.append_inj' h rfl
      have quotient := ih (n / base) (Nat.div_lt_self (by omega) least) front
      have remainder := (digitChar_inj (last n) (last m)).mp (List.singleton_inj.mp digit)
      rw [← Nat.div_add_mod n base, ← Nat.div_add_mod m base, quotient, remainder]

/-- A digit of lower-case hexadecimal, and its value. -/
def IsLowerDigit (c : Char) (n : Nat) : Prop :=
  ['0', '1', '2', '3', '4', '5', '6', '7', '8', '9', 'a', 'b', 'c', 'd', 'e', 'f'][n]? = some c

theorem isLowerDigit_digitChar : ∀ n < 16, IsLowerDigit (Nat.digitChar n) n := by
  simp only [IsLowerDigit]
  decide

theorem IsLowerDigit.eq {c : Char} {n : Nat} (h : IsLowerDigit c n) :
    n < 16 ∧ c = Nat.digitChar n := by
  have low : n < 16 := (List.getElem?_eq_some_iff.mp h).1
  exact ⟨low, Option.some.inj (h.symm.trans (isLowerDigit_digitChar n low))⟩

theorem toString_inj {n m : Nat} : toString n = toString m ↔ n = m := by
  rw [← String.toList_inj, toList_toString, toList_toString,
    toDigits_inj (by decide) (by decide)]

theorem isDigit_of_mem_toDigits {n : Nat} : ∀ c ∈ Nat.toDigits 10 n, c.isDigit :=
  fun _ hc => Nat.isDigit_of_mem_toDigits (by decide) (by decide) hc

/-- A number that begins a text is told from what stands after it. -/
theorem toString_append_inj {n m : Nat} {text text' : String}
    (stop : ∀ c ∈ text.toList.head?, c.isDigit = false)
    (stop' : ∀ c ∈ text'.toList.head?, c.isDigit = false)
    (h : toString n ++ text = toString m ++ text') : n = m ∧ text = text' := by
  have chars := congrArg String.toList h
  simp only [String.toList_append, toList_toString] at chars
  have parted := run_append_inj isDigit_of_mem_toDigits isDigit_of_mem_toDigits stop stop' chars
  exact ⟨(toDigits_inj (by decide) (by decide)).mp parted.1, String.toList_inj.mp parted.2⟩

/-- A number that ends a text is told from what stands before it. -/
theorem append_toString_inj {n m : Nat} {text text' : String}
    (stop : ∀ c ∈ text.toList.getLast?, c.isDigit = false)
    (stop' : ∀ c ∈ text'.toList.getLast?, c.isDigit = false)
    (h : text ++ toString n = text' ++ toString m) : text = text' ∧ n = m := by
  have chars := congrArg (List.reverse ∘ String.toList) h
  simp only [Function.comp_apply, String.toList_append, toList_toString,
    List.reverse_append] at chars
  have digits (n : Nat) : ∀ c ∈ (Nat.toDigits 10 n).reverse, c.isDigit :=
    fun c hc => isDigit_of_mem_toDigits c (List.mem_reverse.mp hc)
  have parted :=
    run_append_inj (digits n) (digits m) (by simpa using stop) (by simpa using stop') chars
  exact ⟨String.toList_inj.mp (List.reverse_inj.mp parted.2),
    (toDigits_inj (by decide) (by decide)).mp (List.reverse_inj.mp parted.1)⟩

end SimpleLedger.Text
