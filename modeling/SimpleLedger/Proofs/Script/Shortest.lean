import Mathlib.Data.List.Forall2
import SimpleLedger.Script.Push
import SimpleLedger.Proofs.Script.Spelling

namespace SimpleLedger.Script

theorem length_pushHeader (length : Nat) : (pushHeader length).length =
    if 1 ≤ length ∧ length ≤ 75 then 1 else if length ≤ 255 then 2
    else if length ≤ 65535 then 3 else 5 := by
  unfold pushHeader
  split
  next => rfl
  next =>
    split
    next => rfl
    next => split <;> simp

theorem header_pushHeader {length : Nat} (bound : length < 0x100000000) :
    Header length (pushHeader length) := by
  unfold pushHeader
  split
  next short => exact .direct short.1 short.2
  next =>
    split
    next small => exact .one small
    next =>
      split
      next medium => exact .two medium
      next => exact .four bound

theorem Header.pushHeader_length_le {length : Nat} {header : Bytes} (h : Header length header) :
    (pushHeader length).length ≤ header.length := by
  rw [length_pushHeader]
  cases h with
  | direct positive short => simp [positive, short]
  | one small =>
    rw [if_pos small]
    split <;> simp
  | two medium =>
    rw [if_pos medium]
    repeat' split
    all_goals simp
  | four bound =>
    repeat' split
    all_goals simp

/-- The width of a header fixes it. -/
theorem Header.eq_of_length_eq {length : Nat} {header other : Bytes} (h : Header length header)
    (ho : Header length other) (same : header.length = other.length) : header = other := by
  cases h <;> cases ho <;> first | rfl | simp at same

theorem Spelling.push_length_le {data spelling : Bytes} (h : Spelling data spelling) :
    (push data).length ≤ spelling.length := by
  obtain ⟨header, announced, rfl⟩ := h
  have := announced.pushHeader_length_le
  simp only [push, List.length_append]
  omega

theorem spelling_push {data : Bytes} (bound : data.length < 0x100000000) :
    Spelling data (push data) :=
  ⟨pushHeader data.length, header_pushHeader bound, rfl⟩

theorem Spelling.eq_push {data spelling : Bytes} (h : Spelling data spelling)
    (short : spelling.length ≤ (push data).length) : spelling = push data := by
  obtain ⟨header, announced, rfl⟩ := h
  have minimal := announced.pushHeader_length_le
  have same : header.length = (pushHeader data.length).length := by
    simp only [push, List.length_append] at short
    omega
  rw [announced.eq_of_length_eq (header_pushHeader announced.length_lt) same, push]

/-- A spelling of a push than which none is shorter. -/
def Shortest (data spelling : Bytes) : Prop :=
  Spelling data spelling ∧ ∀ other, Spelling data other → spelling.length ≤ other.length

theorem shortest_iff {data spelling : Bytes} :
    Shortest data spelling ↔ data.length < 0x100000000 ∧ spelling = push data := by
  constructor
  · intro h
    obtain ⟨spelled, minimal⟩ := h
    exact ⟨spelled.length_lt, spelled.eq_push (minimal _ (spelling_push spelled.length_lt))⟩
  · intro h
    obtain ⟨bound, rfl⟩ := h
    exact ⟨spelling_push bound, fun _ => Spelling.push_length_le⟩

theorem pushes_flatMap_push {fields : List Bytes}
    (bound : ∀ field ∈ fields, field.length < 0x100000000) :
    Pushes fields (fields.flatMap push) := by
  induction fields with
  | nil => exact .nil
  | cons field fields ih =>
    rw [List.flatMap_cons]
    exact .cons (spelling_push (bound field (by simp)))
      (ih fun other hm => bound other (List.mem_cons_of_mem field hm))

theorem Pushes.flatMap_push_length_le {fields : List Bytes} {bytes : Bytes}
    (h : Pushes fields bytes) : (fields.flatMap push).length ≤ bytes.length := by
  induction h with
  | nil => simp
  | cons spelled _ ih =>
    have := spelled.push_length_le
    simp only [List.flatMap_cons, List.length_append]
    omega

theorem Pushes.eq_flatMap_push {fields : List Bytes} {bytes : Bytes} (h : Pushes fields bytes)
    (short : bytes.length ≤ (fields.flatMap push).length) : bytes = fields.flatMap push := by
  induction h with
  | nil => rfl
  | cons spelled others ih =>
    have first := spelled.push_length_le
    have rest := others.flatMap_push_length_le
    simp only [List.flatMap_cons, List.length_append] at short ⊢
    rw [spelled.eq_push (by omega), ih (by omega)]

theorem forall₂_shortest_iff {fields spellings : List Bytes} :
    List.Forall₂ Shortest fields spellings ↔
      (∀ field ∈ fields, field.length < 0x100000000) ∧ spellings = fields.map push := by
  induction fields generalizing spellings with
  | nil => simp
  | cons field fields ih =>
    rw [List.forall₂_cons_left_iff]
    simp only [shortest_iff, ih, List.forall_mem_cons, List.map_cons]
    constructor
    · intro h
      obtain ⟨_, _, ⟨bound, rfl⟩, ⟨bounds, rfl⟩, rfl⟩ := h
      exact ⟨⟨bound, bounds⟩, rfl⟩
    · intro h
      obtain ⟨⟨bound, bounds⟩, rfl⟩ := h
      exact ⟨_, _, ⟨bound, rfl⟩, ⟨bounds, rfl⟩, rfl⟩

end SimpleLedger.Script
