import Mathlib.Data.List.TakeDrop
import Mathlib.Data.List.TakeWhile
import SimpleLedger.Settings.Path

namespace SimpleLedger.Settings

/-- Whether a character can stand in a key in lower case. -/
def IsLowerChar (c : Char) : Prop :=
  c.isLower ∨ c.isDigit ∨ c = '_' ∨ c = '-'

instance : DecidablePred IsLowerChar :=
  fun c => inferInstanceAs (Decidable (c.isLower ∨ c.isDigit ∨ c = '_' ∨ c = '-'))

/-- A key in lower case, with at least one character. -/
def IsLowerKey (key : String) : Prop :=
  key ≠ "" ∧ ∀ c ∈ key.toList, IsLowerChar c

instance : DecidablePred IsLowerKey :=
  fun key => @instDecidableAnd _ _ _ (List.decidableBAll _ key.toList)

/-- All tables that stand in tables have keys in lower case. -/
inductive LowerKeyed : Value → Prop
  | table {entries : List (String × Value)} : (∀ entry ∈ entries, IsLowerKey entry.1) →
    (∀ entry ∈ entries, LowerKeyed entry.2) → LowerKeyed (.table entries)
  | other {value : Value} : value.isTable = false → LowerKeyed value

theorem IsLowerChar.toNat_lt {c : Char} (h : IsLowerChar c) : c.toNat < 128 := by
  rcases h with letter | digit | rfl | rfl
  · have high : c.val ≤ 122 := of_decide_eq_true (Bool.and_eq_true_iff.mp letter).2
    exact Nat.lt_of_le_of_lt (UInt32.le_iff_toNat_le.mp high) (by decide)
  · have high : c.val ≤ 57 := of_decide_eq_true (Bool.and_eq_true_iff.mp digit).2
    exact Nat.lt_of_le_of_lt (UInt32.le_iff_toNat_le.mp high) (by decide)
  · decide
  · decide

theorem IsLowerChar.facts {c : Char} (h : IsLowerChar c) :
    c.toLower = c ∧ c ≠ '.' ∧ Step.isKeyChar c := by
  have small : ∀ n < 128, IsLowerChar (Char.ofNat n) → (Char.ofNat n).toLower = Char.ofNat n ∧
      Char.ofNat n ≠ '.' ∧ Step.isKeyChar (Char.ofNat n) := by decide
  have known := small c.toNat h.toNat_lt
  rw [Char.ofNat_toNat] at known
  exact known h

theorem loweredKey_of_lower {key : String} (h : ∀ c ∈ key.toList, IsLowerChar c ∨ c = '.') :
    Value.loweredKey key = key := by
  rw [Value.loweredKey, ← String.toList_inj, String.toList_ofList]
  refine (List.map_congr_left fun c mem => ?_).trans (List.map_id _)
  rcases h c mem with lower | rfl
  · have small := lower.toNat_lt
    rw [if_neg (by omega)]
    exact lower.facts.1
  · rfl

theorem IsLowerKey.not_odd {key : String} (h : IsLowerKey key) :
    ¬ (key = "" ∨ '.' ∈ key.toList) := by
  rintro (empty | point)
  · exact h.1 empty
  · exact (h.2 '.' point).facts.2.1 rfl

section Path

variable {mark : Char} {part : List Char}

theorem Step.cutAt_append (h : mark ∉ part) (taken rest : List Char) :
    cutAt mark taken (part ++ mark :: rest) = (taken.reverse ++ part) :: cutAt mark [] rest := by
  induction part generalizing taken with
  | nil => rw [List.nil_append, cutAt, if_pos rfl, List.append_nil]
  | cons c part ih =>
    rw [List.mem_cons, not_or] at h
    rw [List.cons_append, cutAt, if_neg (Ne.symm h.1), ih h.2, List.reverse_cons,
      List.append_assoc]
    rfl

theorem Step.cutAt_whole (h : mark ∉ part) (taken : List Char) :
    cutAt mark taken part = [taken.reverse ++ part] := by
  induction part generalizing taken with
  | nil => rw [cutAt, List.append_nil]
  | cons c part ih =>
    rw [List.mem_cons, not_or] at h
    rw [cutAt, if_neg (Ne.symm h.1), ih h.2, List.reverse_cons, List.append_assoc]
    rfl

theorem Step.keyed?_part (h : ∀ c ∈ part, IsLowerChar c) :
    keyed? part = if part = [] then none else some [.key (String.ofList part)] := by
  have all : ∀ c ∈ part, isKeyChar c := fun c mem => (h c mem).facts.2.2
  have whole : part.span isKeyChar = (part, []) := by
    rw [List.span_eq_takeWhile_dropWhile, List.takeWhile_eq_self_iff.mpr all,
      List.dropWhile_eq_nil_iff.mpr all]
  rw [keyed?, whole]
  cases part <;> rfl

theorem IsLowerKey.path_eq {key : String} (h : IsLowerKey key) : Step.path key = [.key key] := by
  have absent : '.' ∉ key.toList := fun mem => (h.2 '.' mem).facts.2.1 rfl
  have filled : key.toList ≠ [] := fun none => h.1 (String.toList_eq_nil_iff.mp none)
  have steps : Step.path? key = some [.key key] := by
    rw [Step.path?, Step.cutAt_whole absent, List.reverse_nil, List.nil_append, List.mapM_cons,
      Step.keyed?_part h.2, if_neg filled, String.ofList_toList]
    rfl
  rw [Step.path, loweredKey_of_lower fun c mem => .inl (h.2 c mem), steps]
  rfl

end Path

theorem lowered_of_not_isTable {value : Value} (h : value.isTable = false) :
    value.lowered = value := by
  cases value <;> first | rfl | cases h

theorem loweredEntries_eq {entries : List (String × Value)}
    (keys : ∀ entry ∈ entries, IsLowerKey entry.1)
    (values : ∀ entry ∈ entries, entry.2.lowered = entry.2) :
    Value.loweredEntries entries = entries := by
  induction entries with
  | nil => rfl
  | cons entry rest ih =>
    obtain ⟨key, others⟩ := List.forall_mem_cons.mp keys
    obtain ⟨value, inner⟩ := List.forall_mem_cons.mp values
    have lower : Value.loweredKey entry.1 = entry.1 :=
      loweredKey_of_lower fun c mem => .inl (key.2 c mem)
    rw [Value.loweredEntries, lower, value, ih others inner]

theorem LowerKeyed.lowered_eq {value : Value} (h : LowerKeyed value) : value.lowered = value := by
  induction h with
  | table keys _ ih => rw [Value.lowered, loweredEntries_eq keys ih]
  | other leaf => exact lowered_of_not_isTable leaf

/-- The entries of a table with keys in lower case, laid one after the other, are laid as a whole. -/
theorem LowerKeyed.foldl_lay {entries : List (String × Value)} (h : LowerKeyed (.table entries))
    (base : Value) :
    entries.foldl (fun base (name, value) => base.lay name value) base =
      base.merge (.table entries) := by
  cases h with
  | table keys values =>
    rw [Value.merge]
    induction entries generalizing base with
    | nil => rfl
    | cons entry rest ih =>
      obtain ⟨key, keys⟩ := List.forall_mem_cons.mp keys
      obtain ⟨value, values⟩ := List.forall_mem_cons.mp values
      have first : base.lay entry.1 entry.2 = Value.mergeEntries base [entry] := by
        rw [Value.lay, value.lowered_eq, key.path_eq, Value.setAt]
        rfl
      rw [List.foldl_cons, ih _ keys values, Value.mergeEntries]
      exact congrArg (Value.mergeEntries · rest) first
  | other leaf => cases leaf

end SimpleLedger.Settings
