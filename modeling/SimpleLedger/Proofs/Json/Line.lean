import SimpleLedger.Proofs.Json.Printing
import SimpleLedger.Proofs.Text.Printable

namespace SimpleLedger.Json

/-- None of the characters is a control. -/
def Uncontrolled (text : List Char) : Prop :=
  ∀ c ∈ text, 32 ≤ c.toNat

instance (text : List Char) : Decidable (Uncontrolled text) :=
  List.decidableBAll _ text

variable {text rest : List Char} {items : List Json} {members : List (String × Json)}

theorem uncontrolled_append :
    Uncontrolled (text ++ rest) ↔ Uncontrolled text ∧ Uncontrolled rest :=
  List.forall_mem_append

theorem uncontrolled_cons {c : Char} :
    Uncontrolled (c :: text) ↔ 32 ≤ c.toNat ∧ Uncontrolled text :=
  List.forall_mem_cons

theorem uncontrolled_toString (n : Int) : Uncontrolled (toString n).toList := by
  cases n with
  | ofNat n => exact fun c mem => (Text.isPrintable_toString n c mem).1
  | negSucc n =>
    have digits := Text.isPrintable_append.mpr ⟨(by decide : Text.IsPrintable "-"),
      Text.isPrintable_toString (n + 1)⟩
    exact fun c mem => (digits c mem).1

theorem uncontrolled_escaped (c : Char) : Uncontrolled (escaped c) := by
  have digit : ∀ n < 16, 32 ≤ (Nat.digitChar n).toNat := by decide
  fun_cases escaped c with
  | case8 _ _ _ _ _ _ _ control =>
    simp only [uncontrolled_cons]
    exact ⟨by decide, by decide, by decide, by decide, digit _ (by omega), digit _ (by omega),
      List.forall_mem_nil _⟩
  | case9 _ _ _ _ _ _ _ high => exact List.forall_mem_singleton.mpr (Nat.le_of_not_lt high)
  | case1 | case2 | case3 | case4 | case5 | case6 | case7 => decide

theorem uncontrolled_string (text : String) : Uncontrolled (string text) := by
  have body : Uncontrolled (text.toList.flatMap escaped) := by
    intro c mem
    obtain ⟨d, _, mem⟩ := List.mem_flatMap.mp mem
    exact uncontrolled_escaped d c mem
  exact uncontrolled_append.mpr ⟨uncontrolled_cons.mpr ⟨by decide, body⟩,
    List.forall_mem_singleton.mpr (by decide)⟩

theorem uncontrolled_compactItems (h : ∀ item ∈ items, Uncontrolled item.compact) :
    Uncontrolled (compactItems items) := by
  induction items with
  | nil => exact List.forall_mem_singleton.mpr (by decide)
  | cons item items ih =>
    obtain ⟨first, others⟩ := List.forall_mem_cons.mp h
    exact uncontrolled_append.mpr ⟨uncontrolled_cons.mpr ⟨by decide, first⟩, ih others⟩

/-- A member as it stands after the brace or the comma before it. -/
theorem uncontrolled_member {c : Char} {name : String} (before : 32 ≤ c.toNat)
    (value : Uncontrolled text) (more : Uncontrolled rest) :
    Uncontrolled (c :: string name ++ ':' :: text ++ rest) :=
  uncontrolled_append.mpr ⟨uncontrolled_append.mpr
    ⟨uncontrolled_cons.mpr ⟨before, uncontrolled_string name⟩,
      uncontrolled_cons.mpr ⟨by decide, value⟩⟩, more⟩

theorem uncontrolled_compactMembers (h : ∀ member ∈ members, Uncontrolled member.2.compact) :
    Uncontrolled (compactMembers members) := by
  induction members with
  | nil => exact List.forall_mem_singleton.mpr (by decide)
  | cons member members ih =>
    obtain ⟨first, others⟩ := List.forall_mem_cons.mp h
    exact uncontrolled_member (by decide) first (ih others)

theorem Exact.uncontrolled_compact {value : Json} (h : Exact value) :
    Uncontrolled value.compact := by
  induction h with
  | null => exact (by decide : Uncontrolled Json.null.compact)
  | bool value => exact (by decide : ∀ value, Uncontrolled (Json.bool value).compact) value
  | int => exact uncontrolled_toString _
  | str text => exact uncontrolled_string text
  | @arr items _ ih =>
    cases items with
    | nil => exact (by decide : Uncontrolled (Json.arr []).compact)
    | cons item items =>
      obtain ⟨first, others⟩ := List.forall_mem_cons.mp ih
      exact uncontrolled_append.mpr ⟨uncontrolled_cons.mpr ⟨by decide, first⟩,
        uncontrolled_compactItems others⟩
  | @obj members _ ih =>
    cases members with
    | nil => exact (by decide : Uncontrolled (Json.obj []).compact)
    | cons member members =>
      obtain ⟨first, others⟩ := List.forall_mem_cons.mp ih
      exact uncontrolled_member (by decide) first (uncontrolled_compactMembers others)

end SimpleLedger.Json
