import SimpleLedger.Proofs.Settings.Key
import SimpleLedger.Proofs.Settings.Path
import SimpleLedger.Proofs.Settings.Variable

namespace SimpleLedger.Settings

open Value (Distinct)

namespace Value

/-- Only tables stand above the end of a path, and no entries below it. -/
structure Clear (value : Value) (path : List String) : Prop where
  above : ∀ front key rest inner, front ++ key :: rest = path →
    value.under? front = some inner → inner.isTable
  below : ∀ inner, value.under? path = some inner → inner.isTable → inner = .table []

variable {value base : Value} {path keys : List String}

/-- The value at the end of a path. A table gives none. -/
def leaf? (value : Value) (path : List String) : Option Value :=
  (value.under? path).filter fun inner => !inner.isTable

theorem Clear.under?_empty_merge (clear : value.Clear path) (distinct : value.Distinct)
    (filled : path ≠ []) : ((table []).merge value).under? path = value.under? path := by
  rw [under?_merge distinct clear.above, under?_table_nil filled]
  cases found : value.under? path with
  | none => rfl
  | some inner =>
    cases kind : inner.isTable with
    | true =>
      rw [clear.below inner found kind]
      rfl
    | false =>
      dsimp only
      rw [merge_of_not_isTable kind]

/-- A value replaces the one it is laid over, and an empty table leaves it. -/
theorem Clear.under?_merge_leaf (clear : value.Clear path) (distinct : value.Distinct)
    {standard : Value} (found : base.under? path = some standard) :
    (base.merge value).under? path = some ((value.leaf? path).getD standard) := by
  rw [under?_merge distinct clear.above, found, leaf?]
  cases said : value.under? path with
  | none => rfl
  | some inner =>
    cases kind : inner.isTable with
    | true =>
      rw [clear.below inner said kind]
      rfl
    | false =>
      dsimp only
      rw [Option.getD_some, merge_of_not_isTable kind, Option.filter_some, kind]
      rfl

theorem Clear.empty_merge (clear : value.Clear path) (distinct : value.Distinct)
    (filled : path ≠ []) : ((table []).merge value).Clear path := by
  refine ⟨fun front key rest inner same inside => ?_, fun inner found => ?_⟩
  · have deeper : ∀ front' key' rest' within, front' ++ key' :: rest' = front →
        value.under? front' = some within → within.isTable := by
      intro front' key' rest' within same'
      refine clear.above front' key' (rest' ++ key :: rest) within ?_
      rw [← same, ← same', List.append_assoc]
      rfl
    rw [under?_merge distinct deeper, under?_table_nil_getD] at inside
    cases found : value.under? front with
    | none =>
      rw [found] at inside
      cases front with
      | nil => cases found
      | cons name front => cases inside
    | some upper =>
      rw [found] at inside
      cases inside
      exact isTable_merge (clear.above front key rest upper same found) rfl
  · rw [clear.under?_empty_merge distinct filled] at found
    exact clear.below inner found

/-- A value can be set where the path leads, or apart from all that stands on it. -/
theorem Clear.setUnder (clear : base.Clear path) (leaf : value.isTable = false)
    (aside : keys <+: path ∨ path <+: keys → keys = path) :
    (setUnder value keys base).Clear path ∧
      (setUnder value keys base).under? path =
        if keys = path then some value else base.under? path := by
  have found : (Value.setUnder value keys base).under? path =
      if keys = path then some value else base.under? path := by
    by_cases own : keys = path
    · rw [if_pos own, own, under?_setUnder_self leaf]
    · have apart : ¬ keys <+: path := fun front => own (aside (.inl front))
      have apart' : ¬ path <+: keys := fun front => own (aside (.inr front))
      rw [if_neg own, under?_setUnder_apart apart apart']
  refine ⟨⟨fun front key rest inner same inside => ?_, fun inner last => ?_⟩, found⟩
  -- what stands above the value that is set is a table by now, and the rest is as it was
  · have before : front <+: path := ⟨key :: rest, same⟩
    by_cases leading : front <+: keys
    · obtain ⟨more, split⟩ := leading
      cases more with
      | nil =>
        obtain rfl : front = keys := by simpa using split
        have whole := aside (.inl before)
        simp [whole] at same
      | cons name more =>
        rw [← split] at inside
        exact isTable_of_under?_setUnder inside
    · have apart : ¬ keys <+: front := by
        intro short
        obtain rfl := aside (.inl (short.trans before))
        exact leading before
      rw [under?_setUnder_apart apart leading] at inside
      exact clear.above front key rest inner same inside
  · rw [found] at last
    split at last
    next =>
      cases last
      rw [leaf]
      intro kind
      cases kind
    next => exact clear.below inner last

end Value

section Variables

open Environment

variable {base : Value} {path : List String} {own : List Char} {label : String}
  {environment : List (String × String)}

theorem plain_value (text : String) :
    (Environment.value text).isTable = false ∧ (Environment.value text).Distinct := by
  unfold Environment.value
  dsimp only
  split
  next => exact ⟨rfl, .bool true⟩
  next =>
    split
    next => exact ⟨rfl, .bool false⟩
    next =>
      split
      next n _ => exact ⟨rfl, .int n⟩
      next =>
        split
        next x _ => exact ⟨rfl, .float x⟩
        next => exact ⟨rfl, .text text⟩

/-- A value with what one variable says laid over it. -/
def withVariable (base : Value) (entry : String × String) : Value :=
  match entry? entry.1 entry.2 with
  | some (name, value) => base.lay name value
  | none => base

theorem lay_eq_setUnder {name : String} {keys : List String}
    (leads : Step.path name = keys.map Step.key) {value : Value} (leaf : value.isTable = false) :
    base.lay name value = Value.setUnder value keys base := by
  rw [Value.lay, lowered_of_not_isTable leaf, leads, Value.setUnder]

/-- A variable sets the value at the end of a path if the path is its own, and leaves it otherwise. -/
theorem Value.Clear.withVariable (clear : base.Clear path) (keyed : ∀ key ∈ path, IsLowerKey key)
    (filled : path ≠ []) (plain : IsLabel label)
    (aside : ∀ keys, Names label keys → keys <+: path ∨ path <+: keys → keys = path)
    (spells : Names label path ↔ folded label = own) (text : String) :
    (withVariable base (label, text)).Clear path ∧
      (withVariable base (label, text)).under? path =
        if folded label = own then some (Environment.value text) else base.under? path := by
  rw [Settings.withVariable, entry?]
  cases found : name? label with
  | none =>
    have other : folded label ≠ own := by
      intro same
      obtain ⟨name, known, _⟩ := path_of_names plain (spells.mpr same)
      rw [found] at known
      cases known
    rw [if_neg other]
    exact ⟨clear, rfl⟩
  | some name =>
    obtain ⟨keys, leads, named⟩ := path_of_name? plain found
    have ends : keys <+: path ∨ path <+: keys → Names label keys := by
      rcases named with named | ⟨key, rfl, odd⟩
      · exact fun _ => named
      · have other : key ∉ path := fun mem => (keyed key mem).not_odd odd
        rintro (⟨rest, same⟩ | inside)
        · exact absurd (same ▸ List.mem_cons_self) other
        · obtain ⟨first, rest, rfl⟩ := List.exists_cons_of_ne_nil filled
          obtain ⟨rfl, _⟩ := List.cons_prefix_cons.mp inside
          exact absurd List.mem_cons_self other
    have own_iff : keys = path ↔ folded label = own := by
      rw [← spells]
      constructor
      · rintro rfl
        exact ends (.inl List.prefix_rfl)
      · exact fun named => named.keys_eq plain found leads
    have leaf := (plain_value text).1
    have set := clear.setUnder leaf fun near => aside keys (ends near) near
    rw [← lay_eq_setUnder leads leaf] at set
    simp only [own_iff] at set
    exact set

theorem Value.Distinct.withVariable (h : base.Distinct) (entry : String × String) :
    (withVariable base entry).Distinct := by
  rw [Settings.withVariable, entry?]
  cases name? entry.1 with
  | none => exact h
  | some name =>
    have plain := plain_value entry.2
    rw [Option.map_some]
    dsimp only
    rw [Value.lay, lowered_of_not_isTable plain.1]
    exact h.setAt plain.2

/-- What a file and the environment say together is the root of the file with each variable over it. -/
theorem ofNamed_entries_append {root : Value} (lower : LowerKeyed root) (whole : root.isTable)
    (environment : List (String × String)) :
    Value.ofNamed (root.entries ++ environment.filterMap fun (label, text) => entry? label text) =
      environment.foldl withVariable ((Value.table []).merge root) := by
  cases root with
  | table entries =>
    rw [Value.ofNamed, List.foldl_append, List.foldl_filterMap, Value.entries, lower.foldl_lay]
    congr 1
    funext base entry
    obtain ⟨label, text⟩ := entry
    rw [withVariable]
    dsimp only
    cases entry? label text <;> rfl
  | _ => cases whole

/-- Of all variables, the one for a path sets the value at the end of it, and the others leave it. -/
theorem Value.Clear.withVariables (clear : base.Clear path) (distinct : base.Distinct)
    (keyed : ∀ key ∈ path, IsLowerKey key) (filled : path ≠ [])
    (plain : ∀ entry ∈ environment, IsLabel entry.1)
    (different : environment.Pairwise fun one other => folded one.1 ≠ folded other.1)
    (aside : ∀ entry ∈ environment, ∀ keys, Names entry.1 keys →
      keys <+: path ∨ path <+: keys → keys = path)
    (spells : ∀ label, Names label path ↔ folded label = own) :
    (environment.foldl Settings.withVariable base).Clear path ∧
      (environment.foldl Settings.withVariable base).Distinct ∧
      (environment.foldl Settings.withVariable base).under? path =
        match environment.find? fun entry => folded entry.1 = own with
        | some entry => some (Environment.value entry.2)
        | none => base.under? path := by
  induction environment generalizing base with
  | nil => exact ⟨clear, distinct, rfl⟩
  | cons entry rest ih =>
    obtain ⟨plain, others⟩ := List.forall_mem_cons.mp plain
    obtain ⟨unlike, apart⟩ := List.pairwise_cons.mp different
    obtain ⟨aside, asides⟩ := List.forall_mem_cons.mp aside
    obtain ⟨label, text⟩ := entry
    obtain ⟨clear', set⟩ := clear.withVariable keyed filled plain aside (spells label) text
    obtain ⟨last, sound, found⟩ := ih clear' (distinct.withVariable _) others apart asides
    refine ⟨last, sound, ?_⟩
    rw [List.foldl_cons, found, set, List.find?_cons]
    -- no two labels are the same, so nothing after its own variable sets the path again
    by_cases same : folded label = own
    · have none : rest.find? (fun entry => folded entry.1 = own) = none := by
        rw [List.find?_eq_none]
        intro entry mem
        simpa [← same] using (unlike entry mem).symm
      rw [none]
      simp [same]
    · simp [same]

end Variables

end SimpleLedger.Settings
