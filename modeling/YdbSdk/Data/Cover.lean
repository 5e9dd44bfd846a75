import Mathlib

namespace YdbSdk.Data

open List

/-! # Segments that cover a list

A sequence of segments covers a list when each segment knows the item it starts
with and how many items it spans, and the spans follow each other without a gap.
-/

inductive Covers (start : β → α) (size : β → Nat) : List β → List α → Prop where
  | nil : Covers start size [] []
  | cons {segment : β} {rest : List β} {others items : List α}
      (counted : size segment = others.length + 1) (covers : Covers start size rest items) :
      Covers start size (segment :: rest) (start segment :: (others ++ items))

namespace Covers

variable {start : β → α} {size : β → Nat} {segments more : List β} {segment : β}
  {items further : List α}

theorem single (counted : size segment = others.length + 1) :
    Covers start size [segment] (start segment :: others) := by
  simpa using Covers.cons counted .nil

theorem append (first : Covers start size segments items) (second : Covers start size more further) :
    Covers start size (segments ++ more) (items ++ further) := by
  induction first with
  | nil => exact second
  | cons counted _ ih =>
    rw [cons_append, cons_append, append_assoc]
    exact .cons counted ih

theorem start_mem (covers : Covers start size segments items) (member : segment ∈ segments) :
    start segment ∈ items := by
  induction covers with
  | nil => contradiction
  | cons _ _ ih =>
    rcases mem_cons.mp member with rfl | later
    · exact mem_cons_self
    · exact mem_cons_of_mem _ (mem_append_right _ (ih later))

theorem eq_nil (covers : Covers start size [] items) : items = [] := by
  cases covers
  rfl

theorem uncons (covers : Covers start size (segment :: more) items) :
    0 < size segment ∧ size segment ≤ items.length ∧ items.head? = some (start segment) ∧
      Covers start size [segment] (items.take (size segment)) ∧
      Covers start size more (items.drop (size segment)) := by
  cases covers with
  | cons counted rest =>
    refine ⟨by omega, by simp [counted], rfl, ?_, ?_⟩
    · rw [counted, take_succ_cons, take_left]
      exact single counted
    · rw [counted, drop_succ_cons, drop_left]
      exact rest

theorem head_of_start (covers : Covers start size segments items) (distinct : items.Nodup)
    (member : segment ∈ segments) (first : items.head? = some (start segment)) :
    ∃ rest, segments = segment :: rest := by
  cases covers with
  | nil => contradiction
  | cons counted rest =>
    rcases mem_cons.mp member with rfl | later
    · exact ⟨_, rfl⟩
    · have again := rest.start_mem later
      rw [List.head?_cons, Option.some.injEq] at first
      rw [← first] at again
      exact absurd (mem_append_right _ again) (nodup_cons.mp distinct).1

end Covers

end YdbSdk.Data
