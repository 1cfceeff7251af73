import Mathlib.Data.List.Nodup
import SimpleLedger.Settings.Toml

namespace SimpleLedger.Settings

namespace Value

/-- No table in a value has a key twice. -/
inductive Distinct : Value → Prop
  | nothing : Distinct .nothing
  | bool (value : Bool) : Distinct (.bool value)
  | int (value : Int) : Distinct (.int value)
  | float (value : Binary64) : Distinct (.float value)
  | text (value : String) : Distinct (.text value)
  | array {items : List Value} : (∀ item ∈ items, Distinct item) → Distinct (.array items)
  | table {entries : List (String × Value)} : (entries.map Prod.fst).Nodup →
    (∀ entry ∈ entries, Distinct entry.2) → Distinct (.table entries)

variable {value base inner : Value} {key : String} {path : List Step}
  {entries : List (String × Value)} {items : List Value}

theorem distinct_empty : Distinct (.table []) :=
  .table List.nodup_nil (List.forall_mem_nil _)

theorem Distinct.of_mem_entries (h : Distinct value) {entry : String × Value}
    (mem : entry ∈ value.entries) : Distinct entry.2 := by
  cases h with
  | table _ inner => exact inner entry mem
  | _ => cases mem

theorem Distinct.of_mem_items (h : Distinct value) {item : Value} (mem : item ∈ value.items) :
    Distinct item := by
  cases h with
  | array inner => exact inner item mem
  | _ => cases mem

theorem Distinct.nodup_keys (h : Distinct value) : (value.entries.map Prod.fst).Nodup := by
  cases h with
  | table distinct _ => exact distinct
  | _ => exact List.nodup_nil

theorem Distinct.lookup (h : Distinct value) (found : value.entries.lookup key = some inner) :
    Distinct inner := by
  obtain ⟨before, after, parts, _⟩ := List.lookup_eq_some_iff.mp found
  have mem : (key, inner) ∈ value.entries := by simp [parts]
  exact h.of_mem_entries mem

theorem Distinct.lookup_getD (h : Distinct value) :
    Distinct ((value.entries.lookup key).getD (.table [])) := by
  cases found : value.entries.lookup key with
  | none => exact distinct_empty
  | some inner => exact h.lookup found

theorem mem_setEntry {entry : String × Value} (mem : entry ∈ setEntry key value entries) :
    entry = (key, value) ∨ entry ∈ entries := by
  fun_induction setEntry key value entries with
  | case1 => exact .inl (List.mem_singleton.mp mem)
  | case2 => exact (List.mem_cons.mp mem).imp_right (List.mem_cons_of_mem _)
  | case3 other kept rest _ ih =>
    rcases List.mem_cons.mp mem with first | later
    · exact .inr (first ▸ List.mem_cons_self)
    · exact (ih later).imp_right (List.mem_cons_of_mem _)

theorem nodup_setEntry (h : (entries.map Prod.fst).Nodup) :
    ((setEntry key value entries).map Prod.fst).Nodup := by
  fun_induction setEntry key value entries with
  | case1 => exact List.nodup_singleton _
  | case2 => exact h
  | case3 other kept rest ne ih =>
    obtain ⟨fresh, distinct⟩ := List.nodup_cons.mp h
    refine List.nodup_cons.mpr ⟨fun mem => ?_, ih distinct⟩
    obtain ⟨entry, inside, same⟩ := List.mem_map.mp mem
    rcases mem_setEntry inside with rfl | old
    · exact ne same.symm
    · exact fresh (List.mem_map.mpr ⟨entry, old, same⟩)

theorem Distinct.setEntry (h : Distinct base) (set : Distinct value) :
    Distinct (.table (setEntry key value base.entries)) := by
  refine .table (nodup_setEntry h.nodup_keys) fun entry mem => ?_
  rcases mem_setEntry mem with rfl | old
  · exact set
  · exact h.of_mem_entries old

theorem forall_mem_modify {P : Value → Prop} {change : Value → Value} {n : Nat}
    (h : ∀ item ∈ items, P item) (changed : ∀ item, P item → P (change item)) :
    ∀ item ∈ items.modify n change, P item := by
  intro item mem
  obtain ⟨i, found⟩ := List.mem_iff_getElem?.mp mem
  rw [List.getElem?_modify] at found
  obtain ⟨old, known, rfl⟩ := Option.map_eq_some_iff.mp found
  have kept := h old (List.mem_of_getElem? known)
  split
  next => exact changed old kept
  next => exact kept

theorem forall_mem_changeItem {P : Value → Prop} {change : Value → Value} {n : Nat}
    (h : ∀ item ∈ items, P item) (missing : P .nothing)
    (changed : ∀ item, P item → P (change item)) : ∀ item ∈ changeItem change n items, P item := by
  unfold changeItem
  split
  next => exact forall_mem_modify h changed
  next =>
    simp only [List.mem_append, List.mem_singleton]
    rintro item ((old | added) | rfl)
    · exact h item old
    · rw [List.eq_of_mem_replicate added]
      exact missing
    · exact changed _ missing

theorem Distinct.mergeEntries (h : Distinct base)
    (laid : ∀ entry ∈ entries, ∀ {base}, Distinct base → Distinct (base.merge entry.2)) :
    Distinct (base.mergeEntries entries) := by
  induction entries generalizing base with
  | nil => exact h
  | cons entry rest ih =>
    obtain ⟨first, others⟩ := List.forall_mem_cons.mp laid
    rw [Value.mergeEntries]
    exact ih (h.setEntry (first h.lookup_getD)) others

theorem Distinct.merge (h : Distinct base) (laid : Distinct value) :
    Distinct (base.merge value) := by
  induction laid generalizing base with
  | table _ _ ih => exact h.mergeEntries ih
  | nothing => exact .nothing
  | bool value => exact .bool value
  | int value => exact .int value
  | float value => exact .float value
  | text value => exact .text value
  | array items _ => exact .array items

theorem Distinct.setAt (h : Distinct base) (set : Distinct value) :
    Distinct (setAt value path base) := by
  induction path generalizing base with
  | nil =>
    rw [Value.setAt]
    exact h.merge set
  | cons step path ih =>
    cases step with
    | key name =>
      rw [Value.setAt]
      exact h.setEntry (ih h.lookup_getD)
    | place index =>
      rw [Value.setAt]
      split
      next =>
        refine .array (forall_mem_changeItem (fun _ => h.of_mem_items) .nothing fun item kept => ?_)
        split
        next => exact set
        next => exact ih kept
      next => exact h

theorem Distinct.at? (h : Distinct value) (found : value.at? path = some inner) :
    Distinct inner := by
  induction path generalizing value with
  | nil =>
    rw [Value.at?] at found
    cases found
    exact h
  | cons step path ih =>
    cases step with
    | key name =>
      rw [Value.at?] at found
      split at found
      next next known => exact ih (h.lookup known) found
      next => cases found
    | place index =>
      rw [Value.at?] at found
      split at found
      next next known =>
        obtain ⟨n, _, known⟩ := Option.bind_eq_some_iff.mp known
        exact ih (h.of_mem_items (List.mem_of_getElem? known)) found
      next => cases found

theorem Distinct.removeAt (h : Distinct value) : Distinct (value.removeAt path) := by
  fun_induction Value.removeAt value path with
  | case2 value name _ =>
    refine .table (h.nodup_keys.sublist (List.filter_sublist.map Prod.fst)) fun entry mem => ?_
    exact h.of_mem_entries (List.mem_of_mem_filter mem)
  | case4 value name path _ inner found ih => exact h.setEntry (ih (h.lookup found))
  | case6 value index path n _ _ ih =>
    exact .array (forall_mem_modify (fun _ => h.of_mem_items) ih)
  | _ => exact h

end Value

end SimpleLedger.Settings
