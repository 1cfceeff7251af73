import Mathlib.Data.List.Forall2

namespace SimpleLedger

variable {ε α β : Type}

theorem bind_eq_ok_iff {outcome : Except ε α} {next : α → Except ε β} {b : β} :
    (outcome >>= next) = .ok b ↔ ∃ a, outcome = .ok a ∧ next a = .ok b := by
  cases outcome <;> simp [bind, Except.bind]

theorem mapM_eq_ok_iff {f : α → Except ε β} {xs : List α} {ys : List β} :
    xs.mapM f = .ok ys ↔ List.Forall₂ (fun x y => f x = .ok y) xs ys := by
  induction xs generalizing ys with
  | nil =>
    rw [List.mapM_nil, List.forall₂_nil_left_iff]
    exact ⟨fun h => (Except.ok.inj h).symm, fun h => h ▸ rfl⟩
  | cons x xs ih =>
    rw [List.mapM_cons, bind_eq_ok_iff, List.forall₂_cons_left_iff]
    simp only [bind_eq_ok_iff, ih]
    constructor
    · intro h
      obtain ⟨y, hy, rest, hr, eq⟩ := h
      exact ⟨y, rest, hy, hr, (Except.ok.inj eq).symm⟩
    · intro h
      obtain ⟨y, rest, hy, hr, rfl⟩ := h
      exact ⟨y, hy, rest, hr, rfl⟩

theorem mapM_eq_ok_iff_map_eq {f : α → Except ε β} {xs : List α} {ys : List β} :
    xs.mapM f = .ok ys ↔ xs.map f = ys.map Except.ok := by
  rw [mapM_eq_ok_iff, ← List.forall₂_eq_eq_eq, List.forall₂_map_left_iff,
    List.forall₂_map_right_iff]

/-- What makes a run over a list fail is one of its items. -/
theorem exists_of_mapM_eq_error {f : α → Except ε β} {xs : List α} {e : ε}
    (h : xs.mapM f = .error e) : ∃ x ∈ xs, f x = .error e := by
  induction xs with
  | nil =>
    rw [List.mapM_nil] at h
    cases h
  | cons x xs ih =>
    rw [List.mapM_cons] at h
    cases first : f x with
    | error e' =>
      rw [first] at h
      cases h
      exact ⟨x, List.mem_cons_self, first⟩
    | ok y =>
      rw [first] at h
      cases rest : xs.mapM f with
      | error e' =>
        rw [rest] at h
        cases h
        obtain ⟨x', mem, failed⟩ := ih rest
        exact ⟨x', List.mem_cons_of_mem x mem, failed⟩
      | ok ys =>
        rw [rest] at h
        cases h

/-- What holds of every single result holds of all of them. -/
theorem forall_of_mapM_eq_ok {P : β → Prop} {f : α → Except ε β} {xs : List α} {ys : List β}
    (h : xs.mapM f = .ok ys) (hf : ∀ x y, f x = .ok y → P y) : ∀ y ∈ ys, P y := by
  have results := mapM_eq_ok_iff.mp h
  clear h
  induction results with
  | nil => exact List.forall_mem_nil P
  | cons found _ ih => exact List.forall_mem_cons.mpr ⟨hf _ _ found, ih⟩

/-- The first item that fails decides how a run over a list fails. -/
theorem mapM_eq_error_of_first {f : α → Except ε β} {before after : List α} {x : α} {e : ε}
    (earlier : ∀ one ∈ before, ∃ y, f one = .ok y) (first : f x = .error e) :
    (before ++ x :: after).mapM f = .error e := by
  induction before with
  | nil =>
    rw [List.nil_append, List.mapM_cons, first]
    rfl
  | cons one before ih =>
    obtain ⟨⟨y, found⟩, others⟩ := List.forall_mem_cons.mp earlier
    rw [List.cons_append, List.mapM_cons, found, ih others]
    rfl

theorem mapM_eq_some_iff {f : α → Option β} {xs : List α} {ys : List β} :
    xs.mapM f = some ys ↔ xs.map f = ys.map some := by
  induction xs generalizing ys with
  | nil => cases ys <;> simp
  | cons x xs ih =>
    rw [List.mapM_cons, List.map_cons]
    cases ys with
    | nil => simp [Option.bind_eq_some_iff]
    | cons y ys => simp [Option.bind_eq_some_iff, ih]

theorem exists_mem_of_mapM_eq_some {f : α → Option β} {xs : List α} {ys : List β}
    (h : xs.mapM f = some ys) {y : β} (mem : y ∈ ys) : ∃ x ∈ xs, f x = some y := by
  have result : some y ∈ xs.map f := mapM_eq_some_iff.mp h ▸ List.mem_map_of_mem mem
  exact List.mem_map.mp result

/-- What each result has in common with its item, all of them have. -/
theorem map_eq_of_mapM_eq_some {γ : Type} {f : α → Option β} {xs : List α} {ys : List β}
    {g : β → γ} {k : α → γ} (h : xs.mapM f = some ys) (same : ∀ x y, f x = some y → g y = k x) :
    ys.map g = xs.map k := by
  rw [mapM_eq_some_iff] at h
  induction xs generalizing ys with
  | nil =>
    obtain rfl : ys = [] := List.map_eq_nil_iff.mp h.symm
    rfl
  | cons x xs ih =>
    cases ys with
    | nil => cases h
    | cons y ys =>
      obtain ⟨first, rest⟩ := List.cons.inj h
      rw [List.map_cons, List.map_cons, same x y first, ih rest]

end SimpleLedger
