import Mathlib.Data.List.Infix
import SimpleLedger.Settings.Environment
import SimpleLedger.Proofs.Settings.Key

namespace SimpleLedger.Settings.Environment

/-- Whether a character can stand in the label of a variable: a letter, a digit or an underscore. -/
def IsLabelChar (c : Char) : Prop :=
  c.isAlphanum ∨ c = '_'

instance : DecidablePred IsLabelChar :=
  fun c => inferInstanceAs (Decidable (c.isAlphanum ∨ c = '_'))

/-- Whether a text consists of such characters. -/
def IsLabel (label : String) : Prop :=
  ∀ c ∈ label.toList, IsLabelChar c

instance : DecidablePred IsLabel :=
  fun label => List.decidableBAll _ label.toList

/-- A label with its letters in lower case. -/
def folded (label : String) : List Char :=
  label.toList.map Char.toLower

/-- A text and its parts with pairs of underscores between them. Each pair is the first that can be
taken. -/
inductive Parted : List Char → List (List Char) → Prop
  | whole {part : List Char} : ¬ ['_', '_'] <:+: part → Parted part [part]
  | cut {part rest : List Char} {parts : List (List Char)} : ¬ ['_', '_'] <:+: part ++ ['_'] →
    Parted rest parts → Parted (part ++ '_' :: '_' :: rest) (part :: parts)

/-- A label names keys, in letters of any case. -/
def Names (label : String) (keys : List String) : Prop :=
  "" ∉ keys ∧ ∃ text, folded label = "slp_oracle_".toList ++ text ∧
    Parted text (keys.map String.toList)

theorem IsLabelChar.toNat_lt {c : Char} (h : IsLabelChar c) : c.toNat < 128 := by
  rcases h with h | rfl
  · rcases Bool.or_eq_true_iff.mp h with letter | digit
    · rcases Bool.or_eq_true_iff.mp letter with upper | lower
      · have high : c.val ≤ 90 := (of_decide_eq_true upper).2
        exact Nat.lt_of_le_of_lt (UInt32.le_iff_toNat_le.mp high) (by decide)
      · exact IsLowerChar.toNat_lt (.inl lower)
    · exact IsLowerChar.toNat_lt (.inr (.inl digit))
  · decide

theorem IsLabelChar.isLowerChar_toLower {c : Char} (h : IsLabelChar c) :
    IsLowerChar c.toLower := by
  have small : ∀ n < 128, IsLabelChar (Char.ofNat n) → IsLowerChar (Char.ofNat n).toLower := by
    decide
  have known := small c.toNat h.toNat_lt
  rw [Char.ofNat_toNat] at known
  exact known h

theorem isLowerChar_of_mem_folded {label : String} (h : IsLabel label) :
    ∀ c ∈ folded label, IsLowerChar c := by
  intro c mem
  obtain ⟨original, inside, rfl⟩ := List.mem_map.mp mem
  exact (h original inside).isLowerChar_toLower

theorem loweredKey_of_plain {label : String} (h : IsLabel label) :
    (Value.loweredKey label).toList = folded label := by
  rw [Value.loweredKey, String.toList_ofList, folded]
  refine List.map_congr_left fun c mem => if_neg ?_
  have small := (h c mem).toNat_lt
  omega

variable {text part rest : List Char} {parts : List (List Char)}

theorem pair_prefix_cons {c : Char} :
    ['_', '_'] <+: c :: text ↔ c = '_' ∧ text.head? = some '_' := by
  cases text <;> simp [List.cons_prefix_cons, eq_comm]

theorem exists_parted (text : List Char) : ∃ parts, Parted text parts := by
  fun_induction withPoints text with
  | case1 rest ih =>
    obtain ⟨parts, parted⟩ := ih
    have pieces : Parted ([] ++ '_' :: '_' :: rest) ([] :: parts) := .cut (by decide) parted
    exact ⟨_, pieces⟩
  | case2 c rest single ih =>
    obtain ⟨parts, parted⟩ := ih
    -- a pair that begins with the character would have been taken before
    have apart {after : List Char} (begins : after.head? = rest.head?)
        (none : ¬ ['_', '_'] <:+: after) : ¬ ['_', '_'] <:+: c :: after := by
      rw [List.infix_cons_iff, pair_prefix_cons, begins, List.head?_eq_some_iff]
      rintro (⟨same, tail, more⟩ | inside)
      · exact single tail same more
      · exact none inside
    cases parted with
    | whole none => exact ⟨_, .whole (apart rfl none)⟩
    | @cut part rest parts none parted =>
      have begins : (part ++ ['_']).head? = (part ++ '_' :: '_' :: rest).head? := by
        cases part <;> rfl
      have pieces : Parted ((c :: part) ++ '_' :: '_' :: rest) ((c :: part) :: parts) :=
        .cut (apart begins none) parted
      exact ⟨_, pieces⟩
  | case3 => exact ⟨[[]], .whole (by decide)⟩

theorem withPoints_cons {c : Char} (h : ¬ ['_', '_'] <+: c :: text) :
    withPoints (c :: text) = c :: withPoints text := by
  rw [pair_prefix_cons] at h
  refine withPoints.eq_2 _ _ fun tail same more => h ⟨same, ?_⟩
  rw [more]
  rfl

theorem withPoints_append (h : ¬ ['_', '_'] <:+: part ++ ['_']) (rest : List Char) :
    withPoints (part ++ '_' :: '_' :: rest) = part ++ '.' :: withPoints rest := by
  induction part with
  | nil => exact withPoints.eq_1 rest
  | cons c part ih =>
    rw [List.cons_append, List.infix_cons_iff, not_or] at h
    have single : ¬ ['_', '_'] <+: c :: (part ++ '_' :: '_' :: rest) := by
      have first := h.1
      rw [pair_prefix_cons] at first ⊢
      cases part <;> exact first
    rw [List.cons_append, withPoints_cons single, ih h.2]
    rfl

theorem withPoints_whole (h : ¬ ['_', '_'] <:+: part) : withPoints part = part := by
  induction part with
  | nil => exact withPoints.eq_3
  | cons c part ih =>
    rw [List.infix_cons_iff, not_or] at h
    rw [withPoints_cons h.1, ih h.2]

/-- The points stand exactly where a text is parted. -/
theorem Parted.cutAt_withPoints (h : Parted text parts) (lower : ∀ c ∈ text, IsLowerChar c) :
    Step.cutAt '.' [] (withPoints text) = parts := by
  have absent {part : List Char} (lower : ∀ c ∈ part, IsLowerChar c) : '.' ∉ part :=
    fun mem => (lower '.' mem).facts.2.1 rfl
  induction h with
  | whole none =>
    rw [withPoints_whole none, Step.cutAt_whole (absent lower)]
    rfl
  | cut none _ ih =>
    obtain ⟨front, after⟩ := List.forall_mem_append.mp lower
    obtain ⟨_, after⟩ := List.forall_mem_cons.mp after
    obtain ⟨_, after⟩ := List.forall_mem_cons.mp after
    rw [withPoints_append none, Step.cutAt_append (absent front), ih after]
    rfl

theorem Parted.forall_mem {P : Char → Prop} (h : Parted text parts) (all : ∀ c ∈ text, P c) :
    ∀ part ∈ parts, ∀ c ∈ part, P c := by
  induction h with
  | whole _ => exact List.forall_mem_singleton.mpr all
  | cut _ _ ih =>
    obtain ⟨front, after⟩ := List.forall_mem_append.mp all
    obtain ⟨_, after⟩ := List.forall_mem_cons.mp after
    obtain ⟨_, after⟩ := List.forall_mem_cons.mp after
    exact List.forall_mem_cons.mpr ⟨front, ih after⟩

theorem Parted.two_eq {one two : List Char} (h : Parted text [one, two]) :
    text = one ++ '_' :: '_' :: two := by
  cases h with
  | cut _ last =>
    cases last with
    | whole _ => rfl
    | cut _ none => cases none

/-- A text with an empty part is empty itself, or has a point for a pair of underscores. -/
theorem Parted.empty_or_point (h : Parted text parts) (empty : [] ∈ parts) :
    withPoints text = [] ∨ '.' ∈ withPoints text := by
  cases h with
  | whole none =>
    obtain rfl := List.mem_singleton.mp empty
    exact .inl withPoints.eq_3
  | cut none _ =>
    rw [withPoints_append none]
    exact .inr (List.mem_append_right _ List.mem_cons_self)

theorem mapM_keyed? (lower : ∀ part ∈ parts, ∀ c ∈ part, IsLowerChar c) :
    parts.mapM Step.keyed? =
      if [] ∈ parts then none else some (parts.map fun part => [.key (String.ofList part)]) := by
  induction parts with
  | nil => rfl
  | cons part parts ih =>
    obtain ⟨first, others⟩ := List.forall_mem_cons.mp lower
    rw [List.mapM_cons, Step.keyed?_part first, ih others]
    cases part with
    | nil => simp
    | cons c part =>
      by_cases empty : [] ∈ parts <;> simp [empty]

theorem mem_withPoints {c : Char} (mem : c ∈ withPoints text) : c = '.' ∨ c ∈ text := by
  fun_induction withPoints text with
  | case1 rest ih =>
    rcases List.mem_cons.mp mem with point | later
    · exact .inl point
    · exact (ih later).imp_right fun inside => by simp [inside]
  | case2 d rest _ ih =>
    rcases List.mem_cons.mp mem with rfl | later
    · exact .inr List.mem_cons_self
    · exact (ih later).imp_right (List.mem_cons_of_mem _)
  | case3 => cases mem

theorem Parted.path_withPoints (h : Parted text parts) (lower : ∀ c ∈ text, IsLowerChar c) :
    Step.path (String.ofList (withPoints text)) =
      if [] ∈ parts then [.key (String.ofList (withPoints text))]
      else parts.map fun part => .key (String.ofList part) := by
  have same : Value.loweredKey (String.ofList (withPoints text)) =
      String.ofList (withPoints text) := by
    refine loweredKey_of_lower fun c mem => ?_
    rw [String.toList_ofList] at mem
    exact (mem_withPoints mem).symm.imp_left (lower c)
  have steps : Step.path? (String.ofList (withPoints text)) =
      if [] ∈ parts then none else some (parts.map fun part => .key (String.ofList part)) := by
    rw [Step.path?, String.toList_ofList, h.cutAt_withPoints lower,
      mapM_keyed? (h.forall_mem lower)]
    by_cases empty : [] ∈ parts
    · rw [if_pos empty, if_pos empty]
      rfl
    · rw [if_neg empty, if_neg empty, Option.map_some, ← List.flatMap_def, ← List.map_eq_flatMap]
  rw [Step.path, same, steps]
  by_cases empty : [] ∈ parts
  · rw [if_pos empty, if_pos empty]
    rfl
  · rw [if_neg empty, if_neg empty]
    rfl

variable {label name : String}

theorem name?_eq_some_iff (plain : IsLabel label) :
    name? label = some name ↔ ∃ text, folded label = "slp_oracle_".toList ++ text ∧
      String.ofList (withPoints text) = name := by
  rw [name?, loweredKey_of_plain plain, Option.map_eq_some_iff]
  refine exists_congr fun text => and_congr ?_ Iff.rfl
  rw [List.isPrefixOf?_eq_some_iff_append_eq, eq_comm]
  rfl

/-- A variable leads along the keys that it names, or is a single key that nothing else is. -/
theorem path_of_name? (plain : IsLabel label) (h : name? label = some name) :
    ∃ keys : List String, Step.path name = keys.map Step.key ∧
      (Names label keys ∨ ∃ key, keys = [key] ∧ (key = "" ∨ '.' ∈ key.toList)) := by
  obtain ⟨text, same, rfl⟩ := (name?_eq_some_iff plain).mp h
  obtain ⟨parts, parted⟩ := exists_parted text
  have lower : ∀ c ∈ text, IsLowerChar c := fun c mem =>
    isLowerChar_of_mem_folded plain c (same ▸ List.mem_append_right _ mem)
  have path := parted.path_withPoints lower
  by_cases empty : [] ∈ parts
  · rw [if_pos empty] at path
    refine ⟨[String.ofList (withPoints text)], path, .inr ⟨_, rfl, ?_⟩⟩
    simpa using parted.empty_or_point empty
  · rw [if_neg empty] at path
    refine ⟨parts.map String.ofList, by rw [path, List.map_map]; rfl, .inl ⟨?_, text, same, ?_⟩⟩
    · simpa using empty
    · simpa [Function.comp_def] using parted

/-- A variable leads along the keys that its label names. -/
theorem path_of_names {keys : List String} (plain : IsLabel label)
    (h : Names label keys) : ∃ name, name? label = some name ∧ Step.path name = keys.map Step.key := by
  obtain ⟨filled, text, same, parted⟩ := h
  refine ⟨_, (name?_eq_some_iff plain).mpr ⟨text, same, rfl⟩, ?_⟩
  have lower : ∀ c ∈ text, IsLowerChar c := fun c mem =>
    isLowerChar_of_mem_folded plain c (same ▸ List.mem_append_right _ mem)
  have full : [] ∉ keys.map String.toList := by simpa using filled
  rw [parted.path_withPoints lower, if_neg full, List.map_map]
  refine List.map_congr_left fun key _ => ?_
  rw [Function.comp_apply, String.ofList_toList]

theorem Names.keys_eq {keys keys' : List String} (h : Names label keys') (plain : IsLabel label)
    (known : name? label = some name) (leads : Step.path name = keys.map Step.key) :
    keys = keys' := by
  obtain ⟨name', known', leads'⟩ := path_of_names plain h
  obtain rfl : name = name' := Option.some.inj (known.symm.trans known')
  have steps : keys.map Step.key = keys'.map Step.key := leads.symm.trans leads'
  exact List.map_injective_iff.mpr (fun _ _ => Step.key.inj) steps

theorem Names.unique {keys keys' : List String} (h : Names label keys) (h' : Names label keys')
    (plain : IsLabel label) : keys = keys' := by
  obtain ⟨name, known, leads⟩ := path_of_names plain h
  exact h'.keys_eq plain known leads

end SimpleLedger.Settings.Environment
