import Mathlib

namespace YdbSdk.Data

open List

/-! # Copying a tree breadth first

The copy is made in a heap of nodes.  A queue holds the subtrees to be copied and the places of
the nodes that were allocated for them. -/

inductive Tree (α : Type) where
  | node (label : α) (children : List (Tree α))

namespace Tree

def size : Tree α → Nat
  | .node _ children => (children.map size).sum + 1

/-- The tree with every label replaced; the number of children is given as well. -/
def visited (visit : α → Nat → β) : Tree α → Tree β
  | .node label children => .node (visit label children.length) (children.map (visited visit))

def All (P : α → Prop) : Tree α → Prop
  | .node label children => P label ∧ ∀ child ∈ children, All P child

/-- A copy of a copy has what both visits make of a label. -/
theorem visited_visited {first : α → Nat → β} {second : β → Nat → γ}
    (same : ∀ label count, P label → second (first label count) count = both label count) :
    (tree : Tree α) → tree.All P → (tree.visited first).visited second = tree.visited both
  | .node label children, all => by
    rw [All] at all
    rw [visited, visited, visited, length_map, same label _ all.1, map_map]
    congr 1
    exact map_congr_left fun child member => visited_visited same child (all.2 child member)

end Tree

abbrev Heap (β : Type) := List (β × List Nat)

/-- The node gets its label and children of its own at the end of the heap. -/
def Heap.assign (heap : Heap β) (fresh : β) (place : Nat) (label : β) (count : Nat) : Heap β :=
  heap.set place (label, range' heap.length count) ++ replicate count (fresh, [])

def walk (fresh : β) (visit : α → Nat → β) : Nat → List (Nat × Tree α) → Heap β → Heap β
  | fuel + 1, (place, .node label children) :: queue, heap =>
    walk fresh visit fuel (queue ++ (range' heap.length children.length).zip children)
      (heap.assign fresh place (visit label children.length) children.length)
  | _, _, heap => heap

def copy (fresh : β) (visit : α → Nat → β) (tree : Tree α) : Heap β :=
  walk fresh visit tree.size [(0, tree)] [(fresh, [])]

/-- The nodes from a place on make up the tree. -/
inductive Holds (heap : Heap β) : Nat → Tree β → Prop where
  | node (here : heap[place]? = some (label, places)) (below : Forall₂ (Holds heap) places children) :
    Holds heap place (.node label children)

variable {queue : List (Nat × Tree α)} {heap : Heap β} {visit : α → Nat → β}

theorem Heap.assign_spec (heap : Heap β) (fresh label : β) (count : Nat) (inside : place < heap.length) :
    (heap.assign fresh place label count).length = heap.length + count ∧
      (heap.assign fresh place label count)[place]? = some (label, range' heap.length count) ∧
      ∀ other < heap.length, other ≠ place → (heap.assign fresh place label count)[other]? = heap[other]? := by
  refine ⟨by simp [assign], ?_, fun other within differs => ?_⟩
  · rw [assign, getElem?_append_left (by simpa using inside), getElem?_set_self inside]
  · rw [assign, getElem?_append_left (by simpa using within), getElem?_set_ne differs.symm]

/-- What was visited stays, and the places that are queued will be visited. -/
theorem walk_holds (distinct : (queue.map Prod.fst).Nodup) (inside : ∀ place ∈ queue.map Prod.fst, place < heap.length)
    (enough : (queue.map (·.2.size)).sum ≤ fuel) :
    (∀ entry ∈ queue, Holds (walk fresh visit fuel queue heap) entry.1 (entry.2.visited visit)) ∧
      ∀ place < heap.length, place ∉ queue.map Prod.fst →
        (walk fresh visit fuel queue heap)[place]? = heap[place]? := by
  induction fuel generalizing queue heap with
  | zero =>
    match queue with
    | [] => exact ⟨nofun, fun _ _ _ => rfl⟩
    | (_, .node ..) :: _ => simp [Tree.size] at enough
  | succ fuel ih =>
    match queue with
    | [] => exact ⟨nofun, fun _ _ _ => rfl⟩
    | (place, .node label children) :: queue =>
      obtain ⟨apart, distinct⟩ := nodup_cons.mp distinct
      obtain ⟨here, inside⟩ := forall_mem_cons.mp inside
      rw [walk]
      obtain ⟨longer, assigned, others⟩ := heap.assign_spec fresh (visit label children.length) children.length here
      have new : ∀ other ∈ range' heap.length children.length, heap.length ≤ other ∧ other < heap.length + children.length :=
        fun _ => mem_range'_1.mp
      have count : (range' heap.length children.length).length = children.length := length_range'
      have apartNew := @nodup_range' heap.length children.length 1
      generalize range' heap.length children.length = places at *
      generalize heap.assign fresh place (visit label children.length) children.length = next at *
      have firsts : (queue ++ places.zip children).map Prod.fst = queue.map Prod.fst ++ places := by
        rw [map_append, map_fst_zip (Nat.le_of_eq count)]
      have sizes : (places.zip children).map (·.2.size) = children.map Tree.size := by
        rw [← congrArg (map Tree.size) (map_snd_zip (Nat.le_of_eq count.symm)), map_map]
        rfl
      obtain ⟨holds, stays⟩ := @ih (queue ++ places.zip children) next
        (by rw [firsts]; grind [nodup_append]) (by rw [firsts, longer]; grind)
        (by rw [map_append, sum_append, sizes]; simp [Tree.size] at enough; omega)
      have kept : ∀ other < heap.length, other ∉ queue.map Prod.fst →
          (walk fresh visit fuel (queue ++ places.zip children) next)[other]? = next[other]? :=
        fun other within absent => stays other (by omega) (by rw [firsts]; grind)
      refine ⟨forall_mem_cons.mpr ⟨?_, fun entry member => holds entry (mem_append_left _ member)⟩, ?_⟩
      · rw [Tree.visited]
        refine .node ((kept place here apart).trans assigned) ?_
        rw [forall₂_map_right_iff, forall₂_iff_zip]
        exact ⟨count, fun member => holds _ (mem_append_right _ member)⟩
      · intro other within absent
        obtain ⟨differs, absent⟩ := not_or.mp (mt mem_cons.mpr absent)
        exact (kept other within absent).trans (others other within differs)

theorem copy_holds (fresh : β) (visit : α → Nat → β) (tree) : Holds (copy fresh visit tree) 0 (tree.visited visit) :=
  (walk_holds (by simp) (by simp) (by simp)).1 (0, tree) mem_cons_self

end YdbSdk.Data
