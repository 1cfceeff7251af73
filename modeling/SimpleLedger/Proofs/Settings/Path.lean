import Mathlib.Data.List.Basic
import SimpleLedger.Proofs.Settings.Distinct
import SimpleLedger.Settings.Path

namespace SimpleLedger.Settings.Value

variable {value base inner : Value} {key name : String} {path other : List String}
  {entries : List (String × Value)}

/-- The value to which keys lead, each in the table before it. -/
def under? (value : Value) (keys : List String) : Option Value :=
  value.at? (keys.map Step.key)

/-- A value set where keys lead to. -/
def setUnder (value : Value) (keys : List String) (base : Value) : Value :=
  setAt value (keys.map Step.key) base

@[simp]
theorem under?_nil : value.under? [] = some value := by
  rw [under?, List.map_nil, at?]

@[simp]
theorem under?_cons :
    value.under? (key :: path) = (value.entries.lookup key).bind (under? · path) := by
  rw [under?, List.map_cons, at?]
  cases value.entries.lookup key <;> rfl

@[simp]
theorem setUnder_nil : setUnder value [] base = base.merge value := by
  rw [setUnder, List.map_nil, setAt]

@[simp]
theorem setUnder_cons :
    setUnder value (key :: path) base =
      table (setEntry key (setUnder value path ((base.entries.lookup key).getD (table [])))
        base.entries) := by
  rw [setUnder, List.map_cons, setAt]
  rfl

theorem merge_of_not_isTable (h : value.isTable = false) : base.merge value = value := by
  cases value <;> first | rfl | cases h

theorem under?_table_nil (h : path ≠ []) : (table []).under? path = none := by
  obtain ⟨key, rest, rfl⟩ := List.exists_cons_of_ne_nil h
  rw [under?_cons]
  rfl

theorem isTable_of_under? (h : value.under? path = some inner) (filled : path ≠ []) :
    value.isTable := by
  obtain ⟨key, rest, rfl⟩ := List.exists_cons_of_ne_nil filled
  cases value with
  | table entries => rfl
  | _ => cases h

theorem under?_of_not_isTable (h : value.isTable = false) (filled : path ≠ []) :
    value.under? path = none := by
  cases found : value.under? path with
  | none => rfl
  | some inner =>
    rw [isTable_of_under? found filled] at h
    cases h

theorem under?_append :
    value.under? (path ++ other) = (value.under? path).bind (under? · other) := by
  induction path generalizing value with
  | nil => rfl
  | cons key path ih =>
    simp only [List.cons_append, under?_cons, Option.bind_assoc, ih]

theorem under?_pair_iff : value.under? [key, name] = some inner ↔
    ∃ entries, value.entries.lookup key = some (table entries) ∧ entries.lookup name = some inner := by
  simp only [under?_cons, Option.bind_eq_some_iff, under?_nil, Option.some.injEq, exists_eq_right]
  constructor
  · rintro ⟨between, first, second⟩
    cases between with
    | table entries => exact ⟨entries, first, second⟩
    | _ => cases second
  · rintro ⟨entries, first, second⟩
    exact ⟨_, first, second⟩

theorem under?_setUnder_self (leaf : value.isTable = false) :
    (setUnder value path base).under? path = some value := by
  induction path generalizing base with
  | nil => rw [setUnder_nil, under?_nil, merge_of_not_isTable leaf]
  | cons key path ih =>
    rw [setUnder_cons, under?_cons, entries, lookup_setEntry, if_pos rfl]
    exact ih

/-- What is set under some keys leaves alone what stands under others. -/
theorem under?_setUnder_apart (apart : ¬ path <+: other) (apart' : ¬ other <+: path) :
    (setUnder value path base).under? other = base.under? other := by
  induction path generalizing other base with
  | nil => exact absurd List.nil_prefix apart
  | cons key path ih =>
    cases other with
    | nil => exact absurd List.nil_prefix apart'
    | cons name other =>
      rw [setUnder_cons, under?_cons, under?_cons, entries, lookup_setEntry]
      by_cases same : name = key
      · subst same
        rw [List.prefix_cons_inj] at apart apart'
        rw [if_pos rfl, Option.bind_some, ih apart apart']
        cases base.entries.lookup name with
        | none =>
          have filled : other ≠ [] := fun none => apart' (none ▸ List.nil_prefix)
          exact under?_table_nil filled
        | some inner => rfl
      · rw [if_neg same]

/-- All values above the one that is set are tables. -/
theorem isTable_of_under?_setUnder
    (h : (setUnder value (other ++ key :: path) base).under? other = some inner) :
    inner.isTable := by
  induction other generalizing base with
  | nil =>
    cases h
    rw [List.nil_append, setUnder_cons]
    rfl
  | cons name other ih =>
    rw [List.cons_append, setUnder_cons, under?_cons, entries, lookup_setEntry, if_pos rfl] at h
    exact ih h

theorem lookup_mergeEntries (distinct : (entries.map Prod.fst).Nodup) :
    (base.mergeEntries entries).entries.lookup name =
      match entries.lookup name with
      | some value => some (((base.entries.lookup name).getD (table [])).merge value)
      | none => base.entries.lookup name := by
  induction entries generalizing base with
  | nil => rfl
  | cons entry rest ih =>
    obtain ⟨key, value⟩ := entry
    obtain ⟨fresh, distinct⟩ := List.nodup_cons.mp distinct
    rw [mergeEntries, ih distinct, Value.entries, lookup_setEntry]
    by_cases same : name = key
    · subst same
      have absent : rest.lookup name = none := by
        rw [List.lookup_eq_none_iff]
        intro entry mem
        refine bne_iff_ne.mpr fun same => fresh ?_
        exact List.mem_map.mpr ⟨entry, mem, same.symm⟩
      simp [absent]
    · have passed : ((key, value) :: rest).lookup name = rest.lookup name := by
        rw [List.lookup_cons, beq_eq_false_iff_ne.mpr same]
      rw [passed, if_neg same]

theorem lookup_merge (h : value.isTable) (distinct : value.Distinct) :
    (base.merge value).entries.lookup name =
      match value.entries.lookup name with
      | some value => some (((base.entries.lookup name).getD (table [])).merge value)
      | none => base.entries.lookup name := by
  cases value with
  | table entries =>
    rw [merge]
    exact lookup_mergeEntries distinct.nodup_keys
  | _ => cases h

theorem isTable_merge (h : value.isTable) (under : base.isTable) : (base.merge value).isTable := by
  cases value with
  | table entries =>
    rw [merge]
    induction entries generalizing base with
    | nil => exact under
    | cons entry rest ih =>
      rw [mergeEntries]
      exact ih rfl rfl
  | _ => cases h

theorem under?_table_nil_getD : ((table []).under? path).getD (table []) = table [] := by
  cases path <;> rfl

/-- What stands under keys after a value is laid over another, if only tables stand above it. -/
theorem under?_merge (distinct : value.Distinct)
    (above : ∀ front key rest inner, front ++ key :: rest = path →
      value.under? front = some inner → inner.isTable) :
    (base.merge value).under? path =
      match value.under? path with
      | some inner => some (((base.under? path).getD (table [])).merge inner)
      | none => base.under? path := by
  induction path generalizing value base with
  | nil => rfl
  | cons key path ih =>
    have whole : value.isTable := above [] key path value rfl under?_nil
    rw [under?_cons, under?_cons, under?_cons, lookup_merge whole distinct]
    cases found : value.entries.lookup key with
    | none => rfl
    | some inner =>
      have deeper : ∀ front key' rest within, front ++ key' :: rest = path →
          inner.under? front = some within → within.isTable := by
        intro front key' rest within same inside
        refine above (key :: front) key' rest within (congrArg (key :: ·) same) ?_
        rw [under?_cons, found]
        exact inside
      dsimp only
      rw [Option.bind_some, Option.bind_some, ih (distinct.lookup found) deeper]
      -- where nothing was before, the rest of the path leads into an empty table
      cases base.entries.lookup key with
      | none =>
        cases path with
        | nil => rfl
        | cons name path => rfl
      | some inner => rfl

end SimpleLedger.Settings.Value
