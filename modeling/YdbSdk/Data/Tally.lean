import Mathlib

namespace YdbSdk.Data

open List

/-! # Counting and adding up while one entry of a list changes

The equations add the entry that goes away to the left side, so no subtraction occurs.
-/

variable {α : Type} {list : List α} {index : Nat} {old : α}

theorem split_of_getElem? (found : list[index]? = some old) :
    ∃ front back, list = front ++ old :: back ∧ front.length = index := by
  obtain ⟨inside, here⟩ := List.getElem?_eq_some_iff.mp found
  refine ⟨list.take index, list.drop (index + 1), ?_, length_take_of_le (Nat.le_of_lt inside)⟩
  rw [← here, getElem_cons_drop, take_append_drop]

theorem sum_map_eraseIdx {M : Type} [AddCommMonoid M] (weight : α → M)
    (found : list[index]? = some old) :
    ((list.eraseIdx index).map weight).sum + weight old = (list.map weight).sum := by
  obtain ⟨front, back, rfl, rfl⟩ := split_of_getElem? found
  rw [eraseIdx_append_of_length_le (Nat.le_refl _), Nat.sub_self, eraseIdx_cons_zero]
  simp only [map_append, map_cons, sum_append, sum_cons]
  rw [add_assoc, add_comm (weight old)]

theorem sum_map_modify {M : Type} [AddCommMonoid M] (weight : α → M) (change : α → α)
    (found : list[index]? = some old) :
    ((list.modify index change).map weight).sum + weight old =
      (list.map weight).sum + weight (change old) := by
  rw [modify_eq_set_getElem?, found]
  obtain ⟨front, back, rfl, rfl⟩ := split_of_getElem? found
  rw [Option.map_eq_map, Option.map_some, Option.getD_some,
    set_append_right _ _ (Nat.le_refl _), Nat.sub_self, set_cons_zero]
  simp only [map_append, map_cons, sum_append, sum_cons]
  ac_rfl

theorem sum_map_erase [DecidableEq α] (weight : α → Nat) (member : old ∈ list) :
    ((list.erase old).map weight).sum + weight old = (list.map weight).sum := by
  have same := ((perm_cons_erase member).map weight).sum_nat
  rw [same, map_cons, sum_cons, Nat.add_comm]

theorem mem_modify (member : entry ∈ list.modify index change) :
    entry ∈ list ∨ ∃ original ∈ list, entry = change original := by
  obtain ⟨place, inside, here⟩ := mem_iff_getElem.mp member
  have bound : place < list.length := by simpa using inside
  rw [getElem_modify] at here
  split at here
  · exact .inr ⟨list[place], getElem_mem bound, here.symm⟩
  · exact .inl (here ▸ getElem_mem bound)

theorem map_modify {β : Type} (view : α → β) {seen : β → β}
    (commutes : ∀ entry, view (change entry) = seen (view entry)) (list : List α) (index : Nat) :
    (list.modify index change).map view = (list.map view).modify index seen := by
  apply ext_getElem?
  intro place
  simp only [List.getElem?_map, List.getElem?_modify]
  cases list[place]? with
  | none => rfl
  | some entry =>
    by_cases here : index = place
    · simp [here, commutes]
    · simp [here]

theorem modify_append_last (items : List α) (last : α) (change : α → α) :
    (items ++ [last]).modify items.length change = items ++ [change last] := by
  simp [modify_eq_take_drop]

theorem modify_append_former (last : α) (change : α → α)
    (earlier : index < items.length) :
    (items ++ [last]).modify index change = items.modify index change ++ [last] := by
  rw [modify_eq_take_cons_drop earlier, modify_eq_take_cons_drop (by simp; omega),
    take_append_of_le_length (by omega), getElem_append_left earlier,
    drop_append_of_le_length (by omega), append_assoc, cons_append]

end YdbSdk.Data
