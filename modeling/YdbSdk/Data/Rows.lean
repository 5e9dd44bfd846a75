import Mathlib

namespace YdbSdk.Data

open List

/-! # Pending entries and a table with one row for each key

Entries wait in a queue.  Each has a key, and an owner or none.  A table with one row
for each key can say who owned the oldest entry of the key and how many owned entries
there are.  While entries with one key have one owner, taking the front entry from the
queue is counting its row down.
-/

variable {κ ο : Type} [DecidableEq κ]

def ownersOf (key : κ) (entries : List (κ × Option ο)) : List ο :=
  entries.filterMap (fun entry => if entry.1 = key then entry.2 else none)

/-- The row of a key: the owner of its oldest entry, and how many entries there are. -/
def rowOf (key : κ) (entries : List (κ × Option ο)) : Option (ο × Nat) :=
  (ownersOf key entries).head?.map (fun owner => (owner, (ownersOf key entries).length))

def ownedBy [DecidableEq ο] (owner : ο) (entries : List (κ × Option ο)) : Nat :=
  entries.countP (fun entry => entry.2 == some owner)

section

variable {key other : κ} {owner : ο} {entries : List (κ × Option ο)}

theorem ownersOf_cons (held : Option ο) :
    ownersOf key ((other, held) :: entries) =
      (if other = key then held.toList else []) ++ ownersOf key entries := by
  unfold ownersOf
  by_cases same : other = key
  · cases held <;> simp [same]
  · simp [same]

omit [DecidableEq κ] in
@[simp] theorem ownedBy_append [DecidableEq ο] (more : List (κ × Option ο)) :
    ownedBy owner (entries ++ more) = ownedBy owner entries + ownedBy owner more :=
  countP_append

omit [DecidableEq κ] in
@[simp] theorem ownedBy_cons [DecidableEq ο] (held : Option ο) :
    ownedBy owner ((other, held) :: entries) =
      ownedBy owner entries + if held = some owner then 1 else 0 := by
  simp [ownedBy, countP_cons]

theorem rowOf_eq_none : rowOf key entries = none ↔ ownersOf key entries = [] := by
  simp [rowOf]

theorem rowOf_append :
    rowOf key (entries ++ [(other, some owner)]) =
      if other = key then some (((rowOf key entries).map Prod.fst).getD owner,
          ((rowOf key entries).map Prod.snd).getD 0 + 1) else rowOf key entries := by
  have owners : ownersOf key (entries ++ [(other, some owner)]) =
      ownersOf key entries ++ if other = key then [owner] else [] := by
    unfold ownersOf
    by_cases same : other = key <;> simp [same]
  unfold rowOf
  rw [owners]
  by_cases same : other = key
  · rw [if_pos same, if_pos same]
    cases ownersOf key entries with
    | nil => rfl
    | cons first rest => simp
  · simp [same]

theorem rowOf_append_none : rowOf key (entries ++ [(other, none)]) = rowOf key entries := by
  have owners : ownersOf key (entries ++ [(other, none)]) = ownersOf key entries := by
    simp [ownersOf]
  rw [rowOf, owners, rowOf]

theorem rowOf_cons_none : rowOf key ((other, none) :: entries) = rowOf key entries := by
  have owners : ownersOf key ((other, (none : Option ο)) :: entries) = ownersOf key entries := by
    rw [ownersOf_cons]
    split <;> rfl
  rw [rowOf, owners, rowOf]

theorem rowOf_cons_ne (differ : other ≠ key) (held : Option ο) :
    rowOf key ((other, held) :: entries) = rowOf key entries := by
  have owners : ownersOf key ((other, held) :: entries) = ownersOf key entries := by
    rw [ownersOf_cons, if_neg differ, nil_append]
  rw [rowOf, owners, rowOf]

theorem rowOf_eq_none_of_unowned (unowned : ∀ entry ∈ entries, entry.1 = key → entry.2 = none) :
    rowOf key entries = none := by
  rw [rowOf_eq_none, ownersOf, filterMap_eq_nil_iff]
  intro entry member
  split
  · rename_i same
    exact unowned entry member same
  · rfl

theorem exists_of_rowOf {count : Nat} (row : rowOf key entries = some (owner, count)) :
    (key, some owner) ∈ entries := by
  obtain ⟨first, head, same⟩ := Option.map_eq_some_iff.mp row
  obtain ⟨entry, member, shown⟩ := mem_filterMap.mp (mem_of_mem_head? head)
  have isOwner : first = owner := congrArg Prod.fst same
  split at shown
  · rename_i sameKey
    rw [← sameKey, ← isOwner, ← shown]
    exact member
  · contradiction

theorem rowOf_cons_self (together : ∀ entry ∈ entries, entry.1 = key → entry.2 = some owner) :
    ∃ left, rowOf key ((key, some owner) :: entries) = some (owner, left + 1) ∧
      rowOf key entries = if left = 0 then none else some (owner, left) := by
  have owners : ownersOf key ((key, some owner) :: entries) = owner :: ownersOf key entries := by
    rw [ownersOf_cons, if_pos rfl]
    rfl
  refine ⟨(ownersOf key entries).length, by simp [rowOf, owners], ?_⟩
  cases left : ownersOf key entries with
  | nil => simp [rowOf, left]
  | cons first rest =>
    -- The next owner of the row is the owner of the front entry.
    have member : first ∈ ownersOf key entries := by rw [left]; exact mem_cons_self
    obtain ⟨entry, inside, shown⟩ := mem_filterMap.mp member
    split at shown
    · rename_i same
      rw [together entry inside same] at shown
      simp [rowOf, left, Option.some.inj shown]
    · contradiction

end

end YdbSdk.Data
