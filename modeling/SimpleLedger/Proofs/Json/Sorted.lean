import SimpleLedger.Proofs.Json.Printing

namespace SimpleLedger.Json

/-- The members of every object are in the order of their names, and no two have the same. -/
inductive Ordered : Json → Prop
  | null : Ordered .null
  | bool (value : Bool) : Ordered (.bool value)
  | int (n : Int) : Ordered (.int n)
  | real (value : Binary64) : Ordered (.real value)
  | str (text : String) : Ordered (.str text)
  | arr {items : List Json} : (∀ item ∈ items, Ordered item) → Ordered (.arr items)
  | obj {members : List (String × Json)} : members.Pairwise (fun one other => one.1 < other.1) →
    (∀ member ∈ members, Ordered member.2) → Ordered (.obj members)

variable {name : String} {value : Json} {done members : List (String × Json)} {items : List Json}

theorem sortedItems_eq_map (items : List Json) : sortedItems items = items.map sorted := by
  induction items with
  | nil => rfl
  | cons item items ih => rw [sortedItems, ih, List.map_cons]

theorem mem_insertMember {member : String × Json}
    (mem : member ∈ insertMember name value members) :
    member = (name, value) ∨ member ∈ members := by
  fun_induction insertMember name value members with
  | case1 => exact Or.inl (List.mem_singleton.mp mem)
  | case2 => exact List.mem_cons.mp mem
  | case3 kept members _ =>
    exact (List.mem_cons.mp mem).imp_right (List.mem_cons_of_mem _)
  | case4 other kept members _ _ ih =>
    rcases List.mem_cons.mp mem with first | later
    · exact Or.inr (first ▸ List.mem_cons_self)
    · exact (ih later).imp_right (List.mem_cons_of_mem _)

/-- What holds of every member before and after it is sorted holds of the sorted ones. -/
theorem forall_mem_sortedMembers {P : Json → Prop} (before : ∀ member ∈ done, P member.2)
    (h : ∀ member ∈ members, P member.2.sorted) :
    ∀ member ∈ sortedMembers done members, P member.2 := by
  induction members generalizing done with
  | nil => exact before
  | cons member members ih =>
    obtain ⟨first, others⟩ := List.forall_mem_cons.mp h
    apply ih _ others
    intro inserted mem
    rcases mem_insertMember mem with rfl | old
    · exact first
    · exact before inserted old

theorem Exact.sorted (h : Exact value) : Exact value.sorted := by
  induction h with
  | null => exact .null
  | bool value => exact .bool value
  | int low high => exact .int low high
  | str text => exact .str text
  | @arr items _ ih =>
    rw [Json.sorted, sortedItems_eq_map]
    exact .arr (List.forall_mem_map.mpr ih)
  | @obj members _ ih =>
    rw [Json.sorted]
    exact .obj (forall_mem_sortedMembers (List.forall_mem_nil _) ih)

theorem pairwise_insertMember (h : members.Pairwise fun one other => one.1 < other.1) :
    (insertMember name value members).Pairwise fun one other => one.1 < other.1 := by
  fun_induction insertMember name value members with
  | case1 => exact List.pairwise_singleton _ _
  | case2 other kept members less =>
    apply List.pairwise_cons.mpr
    refine ⟨?_, h⟩
    intro member mem
    rcases List.mem_cons.mp mem with rfl | later
    · exact less
    · exact String.lt_trans less ((List.pairwise_cons.mp h).1 member later)
  | case3 kept members _ => exact List.pairwise_cons.mpr (List.pairwise_cons.mp h)
  | case4 other kept members less same ih =>
    obtain ⟨first, others⟩ := List.pairwise_cons.mp h
    apply List.pairwise_cons.mpr
    refine ⟨?_, ih others⟩
    intro member mem
    rcases mem_insertMember mem with rfl | old
    · exact Std.lt_of_le_of_ne (String.not_lt.mp less) (Ne.symm same)
    · exact first member old

theorem pairwise_sortedMembers (h : done.Pairwise fun one other => one.1 < other.1) :
    (sortedMembers done members).Pairwise fun one other => one.1 < other.1 := by
  induction members generalizing done with
  | nil => exact h
  | cons member members ih => exact ih (pairwise_insertMember h)

theorem Exact.ordered_sorted (h : Exact value) : Ordered value.sorted := by
  induction h with
  | null => exact .null
  | bool value => exact .bool value
  | int => exact .int _
  | str text => exact .str text
  | @arr items _ ih =>
    rw [Json.sorted, sortedItems_eq_map]
    exact .arr (List.forall_mem_map.mpr ih)
  | @obj members _ ih =>
    rw [Json.sorted]
    exact .obj (pairwise_sortedMembers .nil) (forall_mem_sortedMembers (List.forall_mem_nil _) ih)

theorem insertMember_of_last (h : ∀ member ∈ members, member.1 < name) :
    insertMember name value members = members ++ [(name, value)] := by
  fun_induction insertMember name value members with
  | case1 => rfl
  | case2 other kept members less =>
    exact absurd (h (other, kept) List.mem_cons_self) (String.lt_asymm less)
  | case3 kept members _ =>
    exact absurd (h (name, kept) List.mem_cons_self) (String.lt_irrefl name)
  | case4 other kept members less same ih =>
    rw [ih (List.forall_mem_cons.mp h).2]
    rfl

theorem sortedMembers_of_pairwise
    (order : (done ++ members).Pairwise fun one other => one.1 < other.1)
    (h : ∀ member ∈ members, member.2.sorted = member.2) :
    sortedMembers done members = done ++ members := by
  induction members generalizing done with
  | nil => exact (List.append_nil done).symm
  | cons member members ih =>
    obtain ⟨same, others⟩ := List.forall_mem_cons.mp h
    have before : ∀ earlier ∈ done, earlier.1 < member.1 := by
      intro earlier mem
      exact (List.pairwise_append.mp order).2.2 earlier mem member List.mem_cons_self
    have joined := List.append_cons done member members
    rw [joined] at order
    rw [sortedMembers, same, insertMember_of_last before, ih order others, ← joined]

theorem Ordered.sorted_eq (h : Ordered value) : value.sorted = value := by
  induction h with
  | null | bool | int | real | str => rfl
  | @arr items _ ih => rw [Json.sorted, sortedItems_eq_map, List.map_congr_left ih, List.map_id']
  | @obj members order _ ih =>
    rw [Json.sorted, @sortedMembers_of_pairwise [] members order ih, List.nil_append]

end SimpleLedger.Json
