import Mathlib.Data.List.Forall2
import SimpleLedger.Proofs.Script.Boundary

namespace SimpleLedger.Script

/-- The beginning of a push is no push, nor does it begin with one. -/
theorem Spelling.not_beginsPush {data spelling part : Bytes} (h : Spelling data spelling)
    (before : part <+: spelling) (shorter : part ≠ spelling) : ¬ BeginsPush part := by
  intro begins
  obtain ⟨data', spelling', spelled, after, rfl⟩ := begins
  obtain ⟨rest, rfl⟩ := before
  have same : spelling' ++ (after ++ rest) = (spelling' ++ after ++ rest) ++ [] := by simp
  obtain ⟨_, eq, _⟩ := spelled.append_inj h same
  have nothing : after ++ rest = [] := by simpa using eq
  exact shorter (by rw [(List.append_eq_nil_iff.mp nothing).2, List.append_nil])

theorem prefix_append_cases {cut first rest : Bytes} (before : cut <+: first ++ rest) :
    (cut <+: first ∧ cut ≠ first) ∨ ∃ more, cut = first ++ more ∧ more <+: rest := by
  by_cases inside : cut <+: first ∧ cut ≠ first
  · exact .inl inside
  · have covers : first <+: cut := by
      rcases List.prefix_or_prefix_of_prefix before (List.prefix_append first rest) with h | h
      · have whole : cut = first := Decidable.not_not.mp fun other => inside ⟨h, other⟩
        exact whole ▸ List.prefix_rfl
      · exact h
    obtain ⟨more, rfl⟩ := covers
    exact .inr ⟨more, rfl, (List.prefix_append_right_inj first).mp before⟩

/-- What ends before all of the pushes ends inside one of them, or right before it. -/
theorem prefix_flatten {spellings : List Bytes} {cut : Bytes} (before : cut <+: spellings.flatten)
    (shorter : cut ≠ spellings.flatten) : ∃ count next part, spellings[count]? = some next ∧
      cut = (spellings.take count).flatten ++ part ∧ part <+: next ∧ part ≠ next := by
  induction spellings generalizing cut with
  | nil => exact absurd (List.prefix_nil.mp before) shorter
  | cons first spellings ih =>
    rw [List.flatten_cons] at before shorter
    rcases prefix_append_cases before with ⟨begins, other⟩ | ⟨more, rfl, before'⟩
    · exact ⟨0, first, cut, rfl, rfl, begins, other⟩
    · have shorter' : more ≠ spellings.flatten := fun eq => shorter (by rw [eq])
      obtain ⟨count, next, part, found, rfl, begins, other⟩ := ih before' shorter'
      refine ⟨count + 1, next, part, found, ?_, begins, other⟩
      rw [List.take_succ_cons, List.flatten_cons, List.append_assoc]

theorem pushes_iff_spellings {fields : List Bytes} {bytes : Bytes} : Pushes fields bytes ↔
    ∃ spellings, List.Forall₂ Spelling fields spellings ∧ bytes = spellings.flatten := by
  constructor
  · intro h
    induction h with
    | nil => exact ⟨[], .nil, rfl⟩
    | @cons field spelling bytes fields spelled _ ih =>
      obtain ⟨spellings, all, rfl⟩ := ih
      exact ⟨spelling :: spellings, .cons spelled all, rfl⟩
  · intro h
    obtain ⟨spellings, all, rfl⟩ := h
    induction all with
    | nil => exact .nil
    | cons spelled _ ih => exact .cons spelled ih

/-- The spellings before one of several are the pushes of the fields before its own. -/
theorem pushes_take {fields spellings : List Bytes} {count : Nat} {next : Bytes}
    (all : List.Forall₂ Spelling fields spellings) (found : spellings[count]? = some next) :
    count < fields.length ∧ (∃ data, Spelling data next) ∧
      Pushes (fields.take count) (spellings.take count).flatten := by
  obtain ⟨inside, rfl⟩ := List.getElem?_eq_some_iff.mp found
  have fewer : count < fields.length := by rw [all.length_eq]; exact inside
  exact ⟨fewer, ⟨_, all.get fewer inside⟩,
    pushes_iff_spellings.mpr ⟨_, List.forall₂_take count all, rfl⟩⟩

end SimpleLedger.Script
