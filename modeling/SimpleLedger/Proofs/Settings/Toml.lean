import SimpleLedger.Proofs.Outcome
import SimpleLedger.Proofs.Settings.Distinct

namespace SimpleLedger.Settings.Toml

open Value (Distinct)

variable {draft next : Draft} {keys : List String} {value : Value} {text rest : List Char}
  {items : List Value} {fuel allowed : Nat}

namespace Draft

theorem distinct_openTable? (h : draft.root.Distinct) (opened : draft.openTable? keys = some next) :
    next.root.Distinct := by
  simp only [openTable?, Option.bind_eq_bind, Option.bind_eq_some_iff] at opened
  obtain ⟨parent, _, path, _, made⟩ := opened
  split at made
  next =>
    cases made
    exact h.removeAt.setAt Value.distinct_empty
  next known =>
    split at made
    next =>
      cases made
      exact h.removeAt.setAt (h.at? known)
    next => cases made

theorem distinct_addTable? (h : draft.root.Distinct) (added : draft.addTable? keys = some next) :
    next.root.Distinct := by
  simp only [addTable?, Option.bind_eq_bind, Option.bind_eq_some_iff] at added
  obtain ⟨parent, _, path, _, made⟩ := added
  split at made
  next =>
    cases made
    exact h.setAt Value.distinct_empty
  next =>
    split at made
    next =>
      cases made
      exact h.setAt Value.distinct_empty
    next => cases made

theorem distinct_through? {path path' : List Step} {key : String} (h : draft.root.Distinct)
    (passed : through? (draft, path) key = some (next, path')) : next.root.Distinct := by
  simp only [through?, Option.bind_eq_bind, Option.bind_eq_some_iff] at passed
  obtain ⟨inner, _, passed⟩ := passed
  split at passed
  next => cases passed
  next =>
    split at passed
    next =>
      cases passed
      exact h
    next =>
      cases passed
      exact h.setAt Value.distinct_empty

theorem distinct_foldlM_through? {path path' : List Step} (h : draft.root.Distinct)
    (passed : keys.foldlM through? (draft, path) = some (next, path')) : next.root.Distinct := by
  induction keys generalizing draft path with
  | nil =>
    cases passed
    exact h
  | cons key keys ih =>
    rw [List.foldlM_cons] at passed
    obtain ⟨⟨inner, _⟩, first, passed⟩ := Option.bind_eq_some_iff.mp passed
    exact ih (distinct_through? h first) passed

theorem distinct_set? (h : draft.root.Distinct) (distinct : value.Distinct)
    (set : draft.set? keys value = some next) : next.root.Distinct := by
  simp only [set?, Option.bind_eq_bind, Option.bind_eq_some_iff] at set
  obtain ⟨⟨inner, parent⟩, passed, path, _, set⟩ := set
  split at set
  next => cases set
  next =>
    cases set
    exact (distinct_foldlM_through? h passed).setAt distinct

end Draft

theorem distinct_number? (h : number? text = some value) : value.Distinct := by
  have float {found : Option Binary64} (h : found.map Value.float = some value) :
      value.Distinct := by
    obtain ⟨x, _, rfl⟩ := Option.map_eq_some_iff.mp h
    exact .float x
  unfold number? at h
  split at h
  split at h
  next => exact float h
  next =>
    obtain ⟨plain, _, h⟩ := Option.bind_eq_some_iff.mp h
    split at h
    split at h
    split at h
    next => cases h
    next =>
      split at h
      next =>
        obtain ⟨n, _, rfl⟩ := Option.map_eq_some_iff.mp h
        exact .int n
      next =>
        dsimp only at h
        split at h
        next => cases h
        next => exact float h
      next => exact float h

theorem distinct_inBase? {base : Nat} (h : inBase? base text = some value) : value.Distinct := by
  obtain ⟨digits, _, h⟩ := Option.bind_eq_some_iff.mp h
  split at h
  next => cases h
  next =>
    dsimp only at h
    split at h
    next =>
      cases h
      exact .int _
    next => cases h

theorem distinct_word? (h : word? text = some value) : value.Distinct := by
  unfold word? at h
  split at h
  next =>
    cases h
    exact .bool true
  next =>
    split at h
    next =>
      cases h
      exact .bool false
    next =>
      split at h
      next => exact distinct_inBase? h
      next => exact distinct_inBase? h
      next => exact distinct_inBase? h
      next => exact distinct_number? (Option.eq_some_of_filter_eq_some h)

theorem distinct_plain? (h : plain? text = some (value, rest)) : value.Distinct := by
  unfold plain? at h
  split at h
  next =>
    cases h
    refine .table (List.nodup_singleton _) (List.forall_mem_singleton.mpr (.text _))
  next =>
    obtain ⟨read, known, same⟩ := Option.map_eq_some_iff.mp h
    cases same
    exact distinct_word? known

theorem distinct_values (fuel : Nat) :
    (∀ {allowed text value rest}, value? fuel allowed text = some (value, rest) →
      value.Distinct) ∧
    (∀ {allowed text items rest}, items? fuel allowed text = some (items, rest) →
      ∀ item ∈ items, item.Distinct) ∧
    ∀ {allowed draft text next rest}, draft.root.Distinct →
      entries? fuel allowed draft text = some (next, rest) → next.root.Distinct := by
  induction fuel with
  | zero =>
    refine ⟨fun h => ?_, fun h => ?_, fun _ h => ?_⟩
    · rw [value?] at h; cases h
    · rw [items?] at h; cases h
    · rw [entries?] at h; cases h
  | succ fuel ih =>
    obtain ⟨value, items, entries⟩ := ih
    refine ⟨fun h => ?_, fun h => ?_, fun distinct h => ?_⟩
    · rw [value?.eq_def] at h
      dsimp only at h
      split at h
      next =>
        obtain ⟨⟨text, _⟩, _, same⟩ := Option.map_eq_some_iff.mp h
        cases same
        exact .text text
      next =>
        obtain ⟨⟨text, _⟩, _, same⟩ := Option.map_eq_some_iff.mp h
        cases same
        exact .text text
      next =>
        split at h
        next => cases h
        next =>
          obtain ⟨⟨items', _⟩, read, same⟩ := Option.map_eq_some_iff.mp h
          cases same
          exact .array (items read)
      next =>
        split at h
        next => cases h
        next =>
          split at h
          next =>
            cases h
            exact Value.distinct_empty
          next =>
            obtain ⟨⟨draft, _⟩, read, same⟩ := Option.map_eq_some_iff.mp h
            cases same
            exact entries Value.distinct_empty read
      next => exact distinct_plain? h
    · rw [items?.eq_def] at h
      dsimp only at h
      split at h
      next =>
        cases h
        exact List.forall_mem_nil _
      next =>
        split at h
        next => cases h
        next item _ read =>
          have first := value read
          split at h
          next =>
            obtain ⟨⟨others, _⟩, more, same⟩ := Option.map_eq_some_iff.mp h
            cases same
            exact List.forall_mem_cons.mpr ⟨first, items more⟩
          next =>
            cases h
            exact List.forall_mem_singleton.mpr first
          next => cases h
    · rw [entries?.eq_def] at h
      obtain ⟨⟨key, after⟩, _, h⟩ := Option.bind_eq_some_iff.mp h
      dsimp only at h
      split at h
      next =>
        rw [Option.bind_eq_bind, Option.bind_some] at h
        obtain ⟨⟨value', _⟩, read, h⟩ := Option.bind_eq_some_iff.mp h
        obtain ⟨inner, set, h⟩ := Option.bind_eq_some_iff.mp h
        have first := Draft.distinct_set? distinct (value read) set
        split at h
        next => exact entries first h
        next =>
          cases h
          exact first
        next => cases h
      next => cases h

/-- A table is the text of a date, or its entries are dated one by one. -/
theorem dated?_table {entries : List (String × Value)} (h : dated? (.table entries) = some value) :
    (∃ text, value = .text text) ∨
      ∃ dated, datedEntries? entries = some dated ∧ value = .table dated := by
  cases entries with
  | nil =>
    rw [dated?] at h
    cases h
    exact .inr ⟨[], by rw [datedEntries?], rfl⟩
  | cons entry rest =>
    obtain ⟨key, first⟩ := entry
    rw [dated?.eq_def] at h
    dsimp only at h
    split at h
    next text _ same =>
      cases same
      split at h
      next =>
        obtain ⟨moment, _, rfl⟩ := Option.map_eq_some_iff.mp h
        exact .inl ⟨_, rfl⟩
      next =>
        obtain ⟨others, read, rfl⟩ := Option.map_eq_some_iff.mp h
        have first : dated? (.text text) = some (.text text) := rfl
        refine .inr ⟨(key, .text text) :: others, ?_, rfl⟩
        rw [datedEntries?, first, read]
        rfl
    next same =>
      cases same
      split at h
      next => cases h
      next =>
        obtain ⟨first', dated, h⟩ := Option.bind_eq_some_iff.mp h
        obtain ⟨others, read, h⟩ := Option.bind_eq_some_iff.mp h
        cases h
        refine .inr ⟨(key, first') :: others, ?_, rfl⟩
        rw [datedEntries?, dated, read]
        rfl
    next same => cases same

theorem datedItems?_eq_mapM (items : List Value) : datedItems? items = items.mapM dated? := by
  induction items with
  | nil => rw [datedItems?, List.mapM_nil]; rfl
  | cons item items ih => rw [datedItems?, ih, List.mapM_cons]; rfl

theorem datedEntries?_eq_mapM (entries : List (String × Value)) :
    datedEntries? entries = entries.mapM fun entry => (dated? entry.2).map (entry.1, ·) := by
  induction entries with
  | nil => rw [datedEntries?, List.mapM_nil]; rfl
  | cons entry rest ih =>
    rw [datedEntries?, ih, List.mapM_cons]
    cases dated? entry.2 <;> rfl

theorem distinct_dated? (h : value.Distinct) {dated : Value} (read : dated? value = some dated) :
    dated.Distinct := by
  induction h generalizing dated with
  | table distinct _ ih =>
    rcases dated?_table read with ⟨text, rfl⟩ | ⟨entries, found, rfl⟩
    · exact .text text
    · rw [datedEntries?_eq_mapM] at found
      have keys : entries.map Prod.fst = _ := map_eq_of_mapM_eq_some found fun entry result same => by
        obtain ⟨value, _, rfl⟩ := Option.map_eq_some_iff.mp same
        rfl
      refine .table (keys ▸ distinct) fun result mem => ?_
      obtain ⟨entry, inside, same⟩ := exists_mem_of_mapM_eq_some found mem
      obtain ⟨value, known, rfl⟩ := Option.map_eq_some_iff.mp same
      exact ih entry inside known
  | array _ ih =>
    rw [dated?] at read
    obtain ⟨items, found, rfl⟩ := Option.map_eq_some_iff.mp read
    rw [datedItems?_eq_mapM] at found
    refine .array fun item mem => ?_
    obtain ⟨original, inside, known⟩ := exists_mem_of_mapM_eq_some found mem
    exact ih original inside known
  | nothing =>
    cases read
    exact .nothing
  | bool value =>
    cases read
    exact .bool value
  | int value =>
    cases read
    exact .int value
  | float value =>
    cases read
    exact .float value
  | text value =>
    cases read
    exact .text value

theorem distinct_line? (h : draft.root.Distinct) (read : line? draft text = some (next, rest)) :
    next.root.Distinct := by
  unfold line? at read
  split at read
  next =>
    obtain ⟨⟨keys, _⟩, _, read⟩ := Option.bind_eq_some_iff.mp read
    dsimp only at read
    split at read
    next =>
      obtain ⟨added, made, read⟩ := Option.bind_eq_some_iff.mp read
      obtain ⟨after, _, same⟩ := Option.bind_eq_some_iff.mp read
      cases same
      exact Draft.distinct_addTable? h made
    next => cases read
  next =>
    obtain ⟨⟨keys, _⟩, _, read⟩ := Option.bind_eq_some_iff.mp read
    dsimp only at read
    split at read
    next =>
      obtain ⟨opened, made, read⟩ := Option.bind_eq_some_iff.mp read
      obtain ⟨after, _, same⟩ := Option.bind_eq_some_iff.mp read
      cases same
      exact Draft.distinct_openTable? h made
    next => cases read
  next =>
    obtain ⟨⟨keys, _⟩, _, read⟩ := Option.bind_eq_some_iff.mp read
    dsimp only at read
    split at read
    next =>
      obtain ⟨⟨value, _⟩, found, read⟩ := Option.bind_eq_some_iff.mp read
      obtain ⟨set, made, read⟩ := Option.bind_eq_some_iff.mp read
      obtain ⟨after, _, same⟩ := Option.bind_eq_some_iff.mp read
      cases same
      exact Draft.distinct_set? h ((distinct_values _).1 found) made
    next => cases read

theorem distinct_lines? (h : draft.root.Distinct) (read : lines? fuel draft text = some value) :
    value.Distinct := by
  induction fuel generalizing draft text with
  | zero =>
    unfold lines? at read
    split at read
    next =>
      cases read
      exact h
    next => cases read
  | succ fuel ih =>
    unfold lines? at read
    split at read
    next =>
      cases read
      exact h
    next =>
      dsimp only at read
      split at read
      next line => exact ih (distinct_line? h line) read
      next => cases read

section Line

variable {next : Draft} {rest after : List Char} {keys : List String}

theorem line?_header (single : text.head? ≠ some '[')
    (named : key? depthLimit text = some (keys, ']' :: rest))
    (opened : draft.openTable? keys = some next) (ends : endOfLine? rest = some after) :
    line? draft ('[' :: text) = some (next, after) := by
  unfold line?
  split
  next same =>
    obtain ⟨_, rfl⟩ := List.cons.inj same
    exact absurd rfl single
  next same =>
    obtain ⟨_, rfl⟩ := List.cons.inj same
    simp [named, opened, ends]
  next _ other => exact absurd rfl (other text)

theorem line?_entry {rest' : List Char} (plain : text.head? ≠ some '[')
    (named : key? depthLimit text = some (keys, '=' :: rest))
    (given : value? (2 * rest.length + 2) depthLimit (dropSpaces rest) = some (value, rest'))
    (set : draft.set? keys value = some next) (ends : endOfLine? rest' = some after) :
    line? draft text = some (next, after) := by
  unfold line?
  split
  next => exact absurd rfl plain
  next => exact absurd rfl plain
  next => simp [named, given, set, ends]

theorem lines?_line (starts : dropBlank text.length text = text) (filled : text ≠ [])
    (line : line? draft text = some (next, rest)) :
    lines? (fuel + 1) draft text = lines? fuel next rest := by
  rw [lines?, starts]
  split
  next => exact absurd rfl filled
  next => simp [line]

theorem read?_of_lines {text : String} {fuel : Nat} {root : Value}
    (unmarked : Text.withoutMark text.toList = text.toList) (length : text.toList.length = fuel)
    (all : lines? fuel Draft.empty text.toList = some value) (dated : dated? value = some root)
    (isTable : root.isTable) : read? text = some root := by
  rw [read?, unmarked, length, all, Option.bind_some, dated, Option.filter_some, if_pos isTable]

end Line

/-- No table that a file holds has a key twice. -/
theorem distinct_read? {text : String} {root : Value} (h : read? text = some root) :
    root.Distinct := by
  obtain ⟨draft, read, dated⟩ := Option.bind_eq_some_iff.mp (Option.eq_some_of_filter_eq_some h)
  exact distinct_dated? (distinct_lines? Value.distinct_empty read) dated

end SimpleLedger.Settings.Toml
