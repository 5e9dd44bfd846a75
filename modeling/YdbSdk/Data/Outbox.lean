import Mathlib

namespace YdbSdk.Data

/-! # An outbox that changes its link

Accepted items are passed to a link and leave the outbox when they are acknowledged.
When the link is replaced, what is not acknowledged waits again, in its old order.
-/

/-- A link: how many items were acknowledged when it was opened, what it received, and how
many of these it has acknowledged. -/
structure Link (α : Type) where
  opened : Nat
  received : List α
  acknowledged : Nat

/-- The links are all that were opened; the last one is in use. -/
structure Outbox (α : Type) where
  accepted : List α
  acknowledged : Nat
  passed : List α
  waiting : List α
  links : List (Link α)

namespace Outbox

/-- Nothing is lost, doubled or reordered, and each link received a run of the accepted
items from the first that was not acknowledged when it was opened.  `owed` counts the
acknowledgements that the link has given and the outbox has not taken. -/
structure Faithful (owed : Nat) (outbox : Outbox α) : Prop where
  bounded : outbox.acknowledged ≤ outbox.accepted.length
  unacknowledged : outbox.passed ++ outbox.waiting = outbox.accepted.drop outbox.acknowledged
  runs : ∀ link ∈ outbox.links, link.received <+: outbox.accepted.drop link.opened
  current : ∀ former link, outbox.links = former ++ [link] →
    link.opened + link.acknowledged = outbox.acknowledged + owed ∧
      link.received.length + owed = link.acknowledged + outbox.passed.length
  unlinked : outbox.links = [] → outbox.passed = [] ∧ owed = 0

variable {outbox : Outbox α} {owed : Nat} {item : α} {rest : List α} {former : List (Link α)}
  {link : Link α}

theorem Faithful.empty : Faithful 0 ⟨([] : List α), 0, [], [], []⟩ where
  bounded := Nat.le_refl _
  unacknowledged := rfl
  runs := nofun
  current former link linked := by simp at linked
  unlinked _ := ⟨rfl, rfl⟩

theorem prefix_append (isRun : run <+: list.drop count) (more : List α) :
    run <+: (list ++ more).drop count := by
  rw [List.drop_append]
  exact isRun.trans (List.prefix_append _ _)

theorem Faithful.accept (faithful : outbox.Faithful owed) :
    Faithful owed { outbox with
      accepted := outbox.accepted ++ [item], waiting := outbox.waiting ++ [item] } where
  bounded := by
    have bounded := faithful.bounded
    simp only [List.length_append]
    omega
  unacknowledged := by
    rw [List.drop_append_of_le_length faithful.bounded, ← faithful.unacknowledged,
      List.append_assoc]
  runs link member := prefix_append (faithful.runs link member) _
  current := faithful.current
  unlinked := faithful.unlinked

variable (faithful : outbox.Faithful 0)
include faithful

theorem Faithful.line (linked : outbox.links = former ++ [link]) :
    link.received ++ outbox.waiting = outbox.accepted.drop link.opened := by
  obtain ⟨counted, long⟩ := faithful.current former link linked
  obtain ⟨later, run⟩ := faithful.runs link (by simp [linked])
  have waiting : outbox.waiting = later := by
    have line := congrArg (List.drop outbox.passed.length) faithful.unacknowledged
    rw [List.drop_left, List.drop_drop] at line
    rw [line, ← @List.drop_left _ link.received later, run, List.drop_drop]
    congr 1
    omega
  rw [waiting, run]

theorem Faithful.next_of_run (head : outbox.waiting = item :: rest)
    (linked : outbox.links = former ++ [link]) :
    link.received ++ [item] <+: outbox.accepted.drop link.opened := by
  rw [← faithful.line linked, head]
  exact ⟨rest, by simp⟩

theorem Faithful.pass (head : outbox.waiting = item :: rest)
    (linked : outbox.links = former ++ [link]) :
    Faithful 0 { outbox with
      passed := outbox.passed ++ [item], waiting := rest
      links := former ++ [{ link with received := link.received ++ [item] }] } where
  bounded := faithful.bounded
  unacknowledged := by
    rw [← faithful.unacknowledged, head, List.append_assoc, List.singleton_append]
  runs other member := by
    rcases List.mem_append.mp member with old | new
    · exact faithful.runs other (by simp [linked, old])
    · rw [List.mem_singleton.mp new]
      exact faithful.next_of_run head linked
  current others last same := by
    obtain ⟨-, rfl⟩ := List.append_singleton_inj.mp same
    obtain ⟨counted, long⟩ := faithful.current former link linked
    simp only [List.length_append]
    omega
  unlinked isUnlinked := by simp at isUnlinked

theorem Faithful.acknowledge (linked : outbox.links = former ++ [link]) (count : Nat) :
    Faithful count { outbox with
      links := former ++ [{ link with acknowledged := link.acknowledged + count }] } where
  bounded := faithful.bounded
  unacknowledged := faithful.unacknowledged
  runs other member := by
    rcases List.mem_append.mp member with old | new
    · exact faithful.runs other (by simp [linked, old])
    · rw [List.mem_singleton.mp new]
      exact faithful.runs link (by simp [linked])
  current others last same := by
    obtain ⟨-, rfl⟩ := List.append_singleton_inj.mp same
    obtain ⟨counted, long⟩ := faithful.current former link linked
    refine ⟨?_, ?_⟩ <;> simp only <;> omega
  unlinked isUnlinked := by simp at isUnlinked

/-- What a former link acknowledges does not matter. -/
theorem Faithful.acknowledgeFormer (linked : outbox.links = former ++ [link]) (index count : Nat) :
    Faithful 0 { outbox with
      links := former.modify index (fun link =>
        { link with acknowledged := link.acknowledged + count }) ++ [link] } where
  bounded := faithful.bounded
  unacknowledged := faithful.unacknowledged
  runs other member := by
    rcases List.mem_append.mp member with old | last
    · obtain ⟨position, found⟩ := List.mem_iff_getElem?.mp old
      rw [List.getElem?_modify] at found
      obtain ⟨before, foundBefore, rfl⟩ := Option.map_eq_some_iff.mp found
      have run := faithful.runs before (by simp [linked, List.mem_of_getElem? foundBefore])
      split <;> exact run
    · exact faithful.runs other (by simp [linked, List.mem_singleton.mp last])
  current others last same := by
    obtain ⟨-, rfl⟩ := List.append_singleton_inj.mp same
    exact faithful.current former _ linked
  unlinked isUnlinked := by simp at isUnlinked

omit faithful in
theorem Faithful.pop (faithful : outbox.Faithful (owed + 1)) (head : outbox.passed = item :: rest) :
    Faithful owed { outbox with passed := rest, acknowledged := outbox.acknowledged + 1 } where
  bounded := by
    have line := congrArg List.length faithful.unacknowledged
    simp only [head, List.length_append, List.length_cons, List.length_drop] at line
    change outbox.acknowledged + 1 ≤ outbox.accepted.length
    omega
  unacknowledged := by
    have line := congrArg (List.drop 1) faithful.unacknowledged
    rw [head, List.cons_append, List.drop_drop] at line
    exact line
  runs := faithful.runs
  current others last same := by
    obtain ⟨counted, long⟩ := faithful.current others last same
    simp only [head, List.length_cons] at long
    refine ⟨?_, ?_⟩ <;> simp only <;> omega
  unlinked isUnlinked := by
    have passed := (faithful.unlinked isUnlinked).1
    simp [head] at passed

theorem Faithful.switch : Faithful 0 { outbox with
      passed := [], waiting := outbox.passed ++ outbox.waiting
      links := outbox.links ++ [⟨outbox.acknowledged, [], 0⟩] } where
  bounded := faithful.bounded
  unacknowledged := faithful.unacknowledged
  runs other member := by
    rcases List.mem_append.mp member with old | new
    · exact faithful.runs other old
    · rw [List.mem_singleton.mp new]
      exact List.nil_prefix
  current others last same := by
    obtain ⟨-, rfl⟩ := List.append_singleton_inj.mp same
    exact ⟨rfl, rfl⟩
  unlinked isUnlinked := by simp at isUnlinked

end Outbox

end YdbSdk.Data
