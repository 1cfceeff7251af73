import SimpleLedger.Text.Blank
import SimpleLedger.Proofs.Text.Numeral
import Mathlib.Data.List.TakeWhile

namespace SimpleLedger.Text

variable {text : List Char}

/-- The text is the core with any white space before and after it. -/
def Padded (core text : List Char) : Prop :=
  ∃ before after, (∀ c ∈ before, isBlank c) ∧ (∀ c ∈ after, isBlank c) ∧
    text = before ++ core ++ after

/-- Neither the first character nor the last is white space. -/
def Bare (core : List Char) : Prop :=
  (∀ c ∈ core.head?, isBlank c = false) ∧ ∀ c ∈ core.getLast?, isBlank c = false

theorem padded_self (text : List Char) : Padded text text :=
  ⟨[], [], List.forall_mem_nil _, List.forall_mem_nil _, (List.append_nil text).symm⟩

theorem bare_of_not_blank (h : ∀ c ∈ text, isBlank c = false) : Bare text :=
  ⟨fun c first => h c (List.mem_of_mem_head? first),
    fun c last => h c (List.mem_of_mem_getLast? last)⟩

theorem head?_dropWhile_isBlank (text : List Char) :
    ∀ c ∈ (text.dropWhile isBlank).head?, isBlank c = false := by
  intro c first
  have stop := List.head?_dropWhile_not isBlank text
  rw [Option.mem_def.mp first] at stop
  exact stop

/-- What stands behind the white space at the front is the core and the white space at the end. -/
theorem dropWhile_eq_trim_append (text : List Char) :
    text.dropWhile isBlank =
      trim text ++ ((text.dropWhile isBlank).reverse.takeWhile isBlank).reverse := by
  rw [trim, ← List.reverse_append, List.takeWhile_append_dropWhile, List.reverse_reverse]

theorem padded_trim (text : List Char) : Padded (trim text) text := by
  refine ⟨text.takeWhile isBlank, ((text.dropWhile isBlank).reverse.takeWhile isBlank).reverse,
    ?_, ?_, ?_⟩
  · exact fun c mem => List.mem_takeWhile_imp mem
  · exact fun c mem => List.mem_takeWhile_imp (List.mem_reverse.mp mem)
  · rw [List.append_assoc, ← dropWhile_eq_trim_append, List.takeWhile_append_dropWhile]

theorem bare_trim (text : List Char) : Bare (trim text) := by
  constructor
  · intro c first
    apply head?_dropWhile_isBlank text
    rw [dropWhile_eq_trim_append, List.head?_append, Option.mem_def.mp first]
    rfl
  · intro c last
    rw [trim, List.getLast?_reverse] at last
    exact head?_dropWhile_isBlank _ c last

/-- White space around a core that has none at its ends is all that trimming takes away. -/
theorem Padded.trim_eq {core : List Char} (padded : Padded core text) (bare : Bare core) :
    trim text = core := by
  obtain ⟨before, after, blankBefore, blankAfter, rfl⟩ := padded
  have backwards : ∀ c ∈ after.reverse, isBlank c :=
    fun c mem => blankAfter c (List.mem_reverse.mp mem)
  cases core with
  | nil =>
    have blank : ∀ c ∈ before ++ [] ++ after, isBlank c := by
      rw [List.append_nil]
      exact List.forall_mem_append.mpr ⟨blankBefore, blankAfter⟩
    rw [trim, List.dropWhile_eq_nil_iff.mpr blank]
    rfl
  | cons d core =>
    have first : ∀ c ∈ (d :: core ++ after).head?, isBlank c = false := bare.1
    have last : ∀ c ∈ (d :: core).reverse.head?, isBlank c = false := by
      rw [List.head?_reverse]
      exact bare.2
    rw [trim, List.append_assoc, dropWhile_append_stop blankBefore first, List.reverse_append,
      dropWhile_append_stop backwards last, List.reverse_reverse]

end SimpleLedger.Text
