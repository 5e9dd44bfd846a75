import Mathlib

namespace YdbSdk.Data

open List

/-! Finite maps as association lists.  `find` looks at the first entry of a key;
`insert` keeps one entry per key. -/

abbrev Assoc (κ ν : Type) := List (κ × ν)

namespace Assoc

variable [DecidableEq κ]

def find (key : κ) : Assoc κ ν → Option ν
  | [] => none
  | (other, value) :: rest => if other = key then some value else find key rest

def erase (key : κ) : Assoc κ ν → Assoc κ ν
  | [] => []
  | (other, value) :: rest =>
    if other = key then erase key rest else (other, value) :: erase key rest

def insert (key : κ) (value : ν) (map : Assoc κ ν) : Assoc κ ν :=
  (key, value) :: erase key map

@[simp] theorem find_nil (key : κ) : find key ([] : Assoc κ ν) = none := rfl

@[simp] theorem find_erase (key other : κ) (map : Assoc κ ν) :
    find other (erase key map) = if other = key then none else find other map := by
  induction map with
  | nil => simp [erase]
  | cons entry rest ih =>
    obtain ⟨first, value⟩ := entry
    simp only [erase]
    by_cases removed : first = key
    · rw [if_pos removed, ih]
      by_cases same : other = key
      · simp [same]
      · simp [find, removed, Ne.symm same]
    · rw [if_neg removed]
      by_cases same : other = key
      · simpa [find, same, removed] using ih
      · simp [find, ih, same]

@[simp] theorem find_insert (key other : κ) (value : ν) (map : Assoc κ ν) :
    find other (insert key value map) = if other = key then some value else find other map := by
  by_cases same : other = key
  · simp [insert, find, same]
  · simp [insert, find, same, Ne.symm same]

variable {key : κ} {value : ν} {map : Assoc κ ν}

theorem mem_of_find (found : find key map = some value) : (key, value) ∈ map := by
  induction map with
  | nil => simp at found
  | cons entry rest ih =>
    obtain ⟨first, content⟩ := entry
    by_cases same : first = key
    · simp only [find, same, if_true, Option.some.injEq] at found
      simp [same, found]
    · simp only [find, same] at found
      exact mem_cons_of_mem _ (ih found)

theorem find_eq_none : find key map = none ↔ ∀ entry ∈ map, entry.1 ≠ key := by
  induction map with
  | nil => simp
  | cons entry rest ih =>
    obtain ⟨first, content⟩ := entry
    by_cases same : first = key
    · simp [find, same]
    · simp [find, same, ih]

theorem erase_eq_filter (key : κ) (map : Assoc κ ν) :
    erase key map = map.filter fun entry => entry.1 ≠ key := by
  induction map with
  | nil => rfl
  | cons head rest ih =>
    by_cases same : head.1 = key
    · simp [erase, same, ih]
    · simp [erase, same, ih]

@[simp] theorem mem_erase :
    entry ∈ erase key map ↔ entry ∈ map ∧ entry.1 ≠ key := by
  simp [erase_eq_filter]

theorem erase_of_find_none (absent : find key map = none) : erase key map = map := by
  rw [erase_eq_filter]
  simpa using find_eq_none.mp absent

theorem erase_sublist (key : κ) (map : Assoc κ ν) : (erase key map).Sublist map :=
  erase_eq_filter key map ▸ filter_sublist

@[simp] theorem mem_insert :
    entry ∈ insert key value map ↔ entry = (key, value) ∨ entry ∈ map ∧ entry.1 ≠ key := by
  simp [insert]

@[simp] theorem erase_erase (key : κ) (map : Assoc κ ν) :
    erase key (erase key map) = erase key map := by
  simp [erase_eq_filter]

@[simp] theorem insert_insert (key : κ) (value other : ν) (map : Assoc κ ν) :
    insert key value (insert key other map) = insert key value map := by
  simp [insert, erase]

theorem find_map (change : ν → μ) (key : κ) (map : Assoc κ ν) :
    find key (map.map fun entry => (entry.1, change entry.2)) = (find key map).map change := by
  induction map with
  | nil => rfl
  | cons head rest ih =>
    obtain ⟨first, content⟩ := head
    by_cases same : first = key
    · simp [find, same]
    · simp only [map_cons, find, same]
      exact ih

def eraseAll (keys : List κ) (map : Assoc κ ν) : Assoc κ ν :=
  keys.foldl (fun map key => erase key map) map

@[simp] theorem find_eraseAll (keys : List κ) (other : κ) (map : Assoc κ ν) :
    find other (eraseAll keys map) = if other ∈ keys then none else find other map := by
  induction keys generalizing map with
  | nil => simp [eraseAll]
  | cons key rest ih =>
    have unfolded : eraseAll (key :: rest) map = eraseAll rest (erase key map) := rfl
    rw [unfolded, ih]
    by_cases later : other ∈ rest <;> by_cases here : other = key <;> simp [here]

theorem eraseAll_eq_filter (keys : List κ) (map : Assoc κ ν) :
    eraseAll keys map = map.filter fun entry => entry.1 ∉ keys := by
  induction keys generalizing map with
  | nil => simp [eraseAll]
  | cons key rest ih =>
    have unfolded : eraseAll (key :: rest) map = eraseAll rest (erase key map) := rfl
    simp [unfolded, ih, erase_eq_filter, Bool.and_comm]

def Distinct (map : Assoc κ ν) : Prop :=
  map.Pairwise fun first second => first.1 ≠ second.1

theorem Distinct.erase (distinct : map.Distinct) (key : κ) :
    (Assoc.erase key map).Distinct :=
  .sublist (erase_sublist key map) distinct

theorem Distinct.insert (distinct : map.Distinct) (key : κ) (value : ν) :
    (Assoc.insert key value map).Distinct := by
  apply List.Pairwise.cons
  · intro entry member same
    exact (mem_erase.mp member).2 same.symm
  · exact distinct.erase key

theorem Distinct.find_eq_some (distinct : map.Distinct) :
    find key map = some value ↔ (key, value) ∈ map := by
  refine ⟨mem_of_find, fun member => ?_⟩
  induction map with
  | nil => contradiction
  | cons entry rest ih =>
    have apart := pairwise_cons.mp distinct
    rcases mem_cons.mp member with here | later
    · cases here
      simp [find]
    · have differ := apart.1 _ later
      simp only [find, differ]
      exact ih apart.2 later

theorem Distinct.find_filter (distinct : map.Distinct) (keep : ν → Bool) :
    find key (map.filter fun entry => keep entry.2) = (find key map).filter keep := by
  have kept : Distinct (map.filter fun entry => keep entry.2) := .filter _ distinct
  ext value
  rw [kept.find_eq_some, mem_filter, Option.filter_eq_some_iff, distinct.find_eq_some]

def insertAll (entries map : Assoc κ ν) : Assoc κ ν :=
  entries.foldl (fun map entry => insert entry.1 entry.2 map) map

theorem find_insertAll (distinct : entries.Distinct) (key : κ)
    (map : Assoc κ ν) :
    find key (insertAll entries map) = (find key entries).or (find key map) := by
  induction entries generalizing map with
  | nil => rfl
  | cons entry rest ih =>
    obtain ⟨first, content⟩ := entry
    have apart := pairwise_cons.mp distinct
    have unfolded : insertAll ((first, content) :: rest) map =
        insertAll rest (insert first content map) := rfl
    rw [unfolded, ih apart.2, find]
    by_cases same : first = key
    · subst same
      have once : find first rest = none :=
        find_eq_none.mpr fun entry member => (apart.1 entry member).symm
      simp [once]
    · simp [same, Ne.symm same]

theorem Distinct.insertAll (distinct : map.Distinct) (entries : Assoc κ ν) :
    (Assoc.insertAll entries map).Distinct := by
  induction entries generalizing map with
  | nil => exact distinct
  | cons entry rest ih => exact ih (distinct.insert entry.1 entry.2)

theorem Distinct.perm_erase (distinct : map.Distinct)
    (found : find key map = some value) : map.Perm ((key, value) :: Assoc.erase key map) := by
  induction map with
  | nil => contradiction
  | cons entry rest ih =>
    obtain ⟨first, content⟩ := entry
    have apart := pairwise_cons.mp distinct
    by_cases same : first = key
    · have unfound : find key rest = none :=
        find_eq_none.mpr fun other member => same ▸ (apart.1 other member).symm
      simp only [find, same, if_true, Option.some.injEq] at found
      simp [Assoc.erase, same, found, erase_of_find_none unfound]
    · simp only [find, same] at found
      simp only [Assoc.erase, same]
      exact ((ih apart.2 found).cons _).trans (.swap _ _ _)

def weigh (weight : ν → Nat) (map : Assoc κ ν) : Nat :=
  (map.map (fun entry => weight entry.2)).sum

theorem weigh_erase (distinct : map.Distinct) (weight : ν → Nat) (key : κ) :
    weigh weight (erase key map) + ((find key map).map weight).getD 0 = weigh weight map := by
  cases found : find key map with
  | none => simp [erase_of_find_none found]
  | some value =>
    have split := ((distinct.perm_erase found).map (fun entry => weight entry.2)).sum_nat
    simp only [map_cons, sum_cons] at split
    simp only [weigh, Option.map_some, Option.getD_some]
    omega

theorem weigh_insert (distinct : map.Distinct) (weight : ν → Nat) (key : κ) (value : ν) :
    weigh weight (insert key value map) + ((find key map).map weight).getD 0 =
      weigh weight map + weight value := by
  have erased := weigh_erase distinct weight key
  have unfolded : weigh weight (insert key value map) =
      weight value + weigh weight (erase key map) := by
    simp [weigh, insert]
  omega

def total (map : Assoc κ Nat) : Nat := (map.map Prod.snd).sum

theorem total_erase {map : Assoc κ Nat} (distinct : map.Distinct) (key : κ) :
    total (erase key map) + (find key map).getD 0 = total map := by
  simpa [total, weigh] using weigh_erase distinct id key

theorem total_insert {map : Assoc κ Nat} (distinct : map.Distinct) (key : κ) (value : Nat) :
    total (insert key value map) + (find key map).getD 0 = total map + value := by
  simpa [total, weigh] using weigh_insert distinct id key value

structure Counts (map : Assoc κ Nat) (items : List κ) : Prop where
  distinct : map.Distinct
  positive : ∀ {item count}, map.find item = some count → 0 < count
  held : ∀ item, (map.find item).getD 0 = items.count item
  total : map.total = items.length

section Counts

variable {map : Assoc κ Nat} {items : List κ} {item : κ} {count : Nat}

theorem Counts.mem (counts : map.Counts items) (found : map.find item = some count) :
    item ∈ items := by
  have held := counts.held item
  rw [found] at held
  exact count_pos_iff.mp (held ▸ counts.positive found)

theorem Counts.add (counts : map.Counts items) (item : κ) :
    (map.insert item ((map.find item).getD 0 + 1)).Counts (items ++ [item]) where
  distinct := counts.distinct.insert _ _
  positive {other count} found := by
    rw [find_insert] at found
    split at found
    · cases found
      exact Nat.succ_pos _
    · exact counts.positive found
  held other := by
    have held := counts.held other
    by_cases same : other = item
    · simp [same, counts.held]
    · simp [same, held, Ne.symm same]
  total := by
    have inserted := total_insert counts.distinct item ((map.find item).getD 0 + 1)
    rw [length_append, length_singleton, ← counts.total]
    omega

theorem Counts.remove (counts : map.Counts items) (found : map.find item = some count) :
    (if count = 1 then map.erase item else map.insert item (count - 1)).Counts (items.erase item) := by
  have positive := counts.positive found
  have held := counts.held item
  have erased := total_erase counts.distinct item
  have inserted := total_insert counts.distinct item (count - 1)
  rw [found, Option.getD_some] at held erased inserted
  have fewer : (items.erase item).length = items.length - 1 :=
    length_erase_of_mem (counts.mem found)
  by_cases last : count = 1
  · rw [if_pos last]
    refine ⟨counts.distinct.erase _, fun {other left} remains => ?_, fun other => ?_, ?_⟩
    · rw [find_erase] at remains
      split at remains
      · contradiction
      · exact counts.positive remains
    · by_cases same : other = item
      · simp [same, ← held, last]
      · simp [same, counts.held, count_erase_of_ne]
    · rw [fewer, ← counts.total]
      omega
  · rw [if_neg last]
    refine ⟨counts.distinct.insert _ _, fun {other left} remains => ?_, fun other => ?_, ?_⟩
    · rw [find_insert] at remains
      split at remains
      · cases remains
        omega
      · exact counts.positive remains
    · by_cases same : other = item
      · simp [same, ← held]
      · simp [same, counts.held, count_erase_of_ne]
    · rw [fewer, ← counts.total]
      omega

end Counts

end Assoc

end YdbSdk.Data
