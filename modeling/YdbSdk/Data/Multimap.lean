import Mathlib

namespace YdbSdk.Data.Multimap

open List

/-! A multimap is a list sorted by key, in which entries with equal keys stand in the order of
insertion: an entry is inserted before the first one with a greater key. -/

variable {key : α → Nat} {queue : List α} {item : α}

theorem sorted_orderedInsert (sorted : queue.Pairwise (key · ≤ key ·)) :
    (queue.orderedInsert (key · < key ·) item).Pairwise (key · ≤ key ·) := by
  induction queue with
  | nil => exact pairwise_singleton _ _
  | cons first rest ih =>
    have tail := pairwise_cons.mp sorted
    rw [List.orderedInsert]
    split
    · rename_i before
      refine pairwise_cons.mpr ⟨fun other member => ?_, sorted⟩
      rcases mem_cons.mp member with same | later
      · exact same ▸ Nat.le_of_lt before
      · exact before.le.trans (tail.1 other later)
    · rename_i notBefore
      refine pairwise_cons.mpr ⟨fun other member => ?_, ih tail.2⟩
      rcases (mem_orderedInsert _).mp member with same | later
      · exact same ▸ Nat.le_of_not_lt notBefore
      · exact tail.1 other later

/-- What is left after the entries below a bound are dropped. -/
theorem dropWhile_eq_filter (sorted : queue.Pairwise (key · ≤ key ·)) (bound : Nat) :
    queue.dropWhile (key · < bound) = queue.filter (bound ≤ key ·) := by
  induction queue with
  | nil => rfl
  | cons first rest ih =>
    have tail := pairwise_cons.mp sorted
    by_cases below : key first < bound
    · simp [below, ih tail.2]
    · have above := Nat.le_of_not_lt below
      have all : rest.filter (bound ≤ key ·) = rest :=
        filter_eq_self.mpr fun other member => by simpa using above.trans (tail.1 other member)
      simp [above, all]

theorem takeWhile_eq_filter (sorted : queue.Pairwise (key · ≤ key ·)) (bound : Nat) :
    queue.takeWhile (key · < bound) = queue.filter (key · < bound) := by
  induction queue with
  | nil => rfl
  | cons first rest ih =>
    have tail := pairwise_cons.mp sorted
    by_cases below : key first < bound
    · simp [below, ih tail.2]
    · have none : rest.filter (key · < bound) = [] :=
        filter_eq_nil_iff.mpr fun other member => by
          simpa using (not_lt.mp below).trans (tail.1 other member)
      simp [below, none]

end YdbSdk.Data.Multimap
