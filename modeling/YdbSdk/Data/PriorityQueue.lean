import Mathlib

namespace YdbSdk.Data

/-! A priority queue as the list of its elements.

The element on top is one with the least key.  Which one of several elements with
the least key is on top is left to `choice`, so that a statement for every
`choice` covers every heap layout.
-/

namespace PriorityQueue

variable (key : α → Nat)

def least (queue : List α) : List α :=
  queue.filter (fun item => queue.all (fun other => decide (key item ≤ key other)))

def top? (choice : Nat) (queue : List α) : Option α :=
  (least key queue)[choice % (least key queue).length]?

variable {key} {choice : Nat} {queue : List α} {item : α}

theorem mem_least :
    item ∈ least key queue ↔ item ∈ queue ∧ ∀ other ∈ queue, key item ≤ key other := by
  simp [least]

theorem top?_mem_least (found : top? key choice queue = some item) : item ∈ least key queue :=
  List.mem_of_getElem? found

theorem top?_mem (found : top? key choice queue = some item) : item ∈ queue :=
  (mem_least.mp (top?_mem_least found)).1

end PriorityQueue

end YdbSdk.Data
