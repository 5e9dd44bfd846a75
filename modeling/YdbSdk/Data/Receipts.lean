import Mathlib

namespace YdbSdk.Data

open List

/-! # Receipts for a queue

Items wait in a queue and leave it, from its front, when they are acknowledged.  A receipt
asked for is bound to the last item, so that it is answered when every item accepted before
it was acknowledged, or when the queue is closed.
-/

/-- Receipts are numbered from zero; `waiting` tells for each item of the queue the receipt
bound to it. -/
structure Receipts where
  accepted : Nat := 0
  acknowledged : Nat := 0
  waiting : List (Option Nat) := []
  answered : List (Nat × Bool) := []
  next : Nat := 0
  closed : Bool := false

namespace Receipts

def completions (value : Bool) (items : List (Option Nat)) : List (Nat × Bool) :=
  items.filterMap fun receipt => receipt.map fun receipt => (receipt, value)

inductive Step : Receipts → Receipts → Prop where
  | accept (receipts : Receipts) : Step receipts
      { receipts with
        accepted := receipts.accepted + 1, waiting := receipts.waiting ++ [none] }
  | acknowledge {receipts : Receipts} {front : Option Nat} {rest : List (Option Nat)}
      (queue : receipts.waiting = front :: rest) : Step receipts
      { receipts with
        acknowledged := receipts.acknowledged + 1
        waiting := rest
        answered := receipts.answered ++ completions true [front] }
  | close {receipts : Receipts} {first second : List (Option Nat)}
      (queue : receipts.waiting = first ++ second) : Step receipts
      { receipts with
        waiting := (first ++ second).map fun _ => none
        answered := receipts.answered ++ completions false second ++ completions false first
        closed := true }
  | ask {receipts : Receipts} {former : List (Option Nat)} {last : Option Nat}
      (isOpen : receipts.closed = false) (queue : receipts.waiting = former ++ [last]) :
      Step receipts
      { receipts with
        waiting := former ++ [some (last.getD receipts.next)]
        next := receipts.next + 1 }

def answers (receipts : Receipts) (receipt : Nat) : List Bool :=
  (receipts.answered.filter fun answer => answer.1 = receipt).map Prod.snd

def uses (receipts : Receipts) (receipt : Nat) : Nat :=
  receipts.waiting.count (some receipt) + (receipts.answers receipt).length

theorem answers_completions (value : Bool) (items : List (Option Nat)) (receipt : Nat) :
    ((completions value items).filter fun answer => answer.1 = receipt).map Prod.snd =
      .replicate (items.count (some receipt)) value := by
  induction items with
  | nil => rfl
  | cons item items ih =>
    cases item with
    | none => simpa [completions] using ih
    | some other =>
      by_cases same : other = receipt
      · subst same
        simpa [completions, replicate_succ] using ih
      · simpa [completions, same] using ih

variable {receipts before after : Receipts} {receipt bound : Nat}

/-- No step forgets an answer, or opens the queue again. -/
structure Grows (before after : Receipts) : Prop where
  acknowledged : before.acknowledged ≤ after.acknowledged
  answers : ∀ receipt, before.answers receipt <+: after.answers receipt
  closed : before.closed = true → after.closed = true
  next : before.next ≤ after.next

theorem Grows.refl (receipts : Receipts) : Grows receipts receipts :=
  ⟨Nat.le_refl _, fun _ => prefix_refl _, id, Nat.le_refl _⟩

theorem Grows.trans (first : Grows before after) (second : Grows after last) :
    Grows before last where
  acknowledged := Nat.le_trans first.acknowledged second.acknowledged
  answers receipt := (first.answers receipt).trans (second.answers receipt)
  closed := second.closed ∘ first.closed
  next := Nat.le_trans first.next second.next

section

variable (step : Step before after)
include step

theorem Step.grows : Grows before after := by
  cases step with
  | accept => exact ⟨Nat.le_refl _, fun _ => prefix_refl _, id, Nat.le_refl _⟩
  | acknowledge queue =>
    refine ⟨Nat.le_succ _, fun receipt => ?_, id, Nat.le_refl _⟩
    simp [Receipts.answers]
  | close queue =>
    refine ⟨Nat.le_refl _, fun receipt => ?_, fun _ => rfl, Nat.le_refl _⟩
    simp [Receipts.answers]
  | ask isOpen queue => exact ⟨Nat.le_refl _, fun _ => prefix_refl _, id, Nat.le_succ _⟩

theorem Step.uses (receipt : Nat) : after.uses receipt = before.uses receipt ∨
      receipt = before.next ∧ after.next = before.next + 1 ∧
        after.uses receipt = before.uses receipt + 1 := by
  cases step with
  | accept => simp [Receipts.uses, Receipts.answers]
  | @acknowledge front rest queue =>
    have parts : (front :: rest).count (some receipt) =
        [front].count (some receipt) + rest.count (some receipt) := by
      rw [← count_append]
      rfl
    simp only [Receipts.uses, Receipts.answers, filter_append, map_append,
      answers_completions, queue, length_append, length_replicate]
    omega
  | @close first second queue =>
    have gone : ((first ++ second).map fun _ => (none : Option Nat)).count (some receipt) = 0 := by
      simp [count_eq_zero]
    simp only [Receipts.uses, Receipts.answers, filter_append, map_append (f := Prod.snd),
      answers_completions, queue, length_append, length_replicate, count_append]
    omega
  | @ask former last isOpen queue =>
    have parts := fun last => @count_append _ _ (some receipt) former [last]
    simp only [Receipts.uses, Receipts.answers, queue, parts]
    cases last with
    | some other => exact .inl rfl
    | none =>
      by_cases isNext : receipt = before.next
      · subst isNext
        refine .inr ⟨rfl, trivial, ?_⟩
        simp only [Option.getD_none, count_singleton_self, count_singleton,
          Option.none_beq_some, Bool.false_eq_true, if_false]
        omega
      · exact .inl (by simp [Ne.symm isNext])

/-- Each receipt occurs once at most, and a closed queue holds none. -/
structure Sound (receipts : Receipts) : Prop where
  counted : receipts.accepted = receipts.acknowledged + receipts.waiting.length
  once : ∀ receipt, receipts.uses receipt ≤ 1
  fresh : ∀ receipt, receipts.next ≤ receipt → receipts.uses receipt = 0
  settled : receipts.closed = true → ∀ receipt, some receipt ∉ receipts.waiting

theorem Step.sound (sound : before.Sound) : after.Sound where
  counted := by
    have counted := sound.counted
    cases step with
    | accept => simp [counted, Nat.add_assoc]
    | acknowledge queue =>
      simp only [queue, length_cons] at counted
      simp only [counted]
      omega
    | close queue => simpa [queue] using counted
    | ask isOpen queue => simpa [queue] using counted
  once receipt := by
    rcases step.uses receipt with same | ⟨isNext, _, more⟩
    · rw [same]
      exact sound.once receipt
    · have unused := sound.fresh receipt (Nat.le_of_eq isNext.symm)
      omega
  fresh receipt unused := by
    have later := step.grows.next
    rcases step.uses receipt with same | ⟨isNext, given, _⟩
    · rw [same]
      exact sound.fresh receipt (by omega)
    · omega
  settled closed receipt := by
    cases step with
    | accept => simpa using sound.settled closed receipt
    | acknowledge queue =>
      have absent := sound.settled closed receipt
      rw [queue] at absent
      exact fun member => absent (mem_cons_of_mem _ member)
    | close => simp
    | ask isOpen => simp [isOpen] at closed

/-- A receipt that stands for the first `bound` items. -/
structure Tracks (receipt bound : Nat) (receipts : Receipts) : Prop where
  given : receipt < receipts.next
  once : receipts.uses receipt = 1
  place : ∀ index, receipts.waiting[index]? = some (some receipt) →
    receipts.acknowledged + index + 1 = bound
  honest : true ∈ receipts.answers receipt → bound ≤ receipts.acknowledged

theorem Step.place (tracks : before.Tracks receipt bound) (index : Nat)
    (found : after.waiting[index]? = some (some receipt)) :
    after.acknowledged + index + 1 = bound := by
  cases step with
  | accept =>
    apply tracks.place index
    rw [List.getElem?_append] at found
    split at found
    · exact found
    · rw [List.getElem?_singleton] at found
      split at found <;> cases found
  | acknowledge queue =>
    have place := tracks.place (index + 1) (by rw [queue]; exact found)
    simp only
    omega
  | close queue =>
    have member := mem_of_getElem? found
    simp at member
  | @ask former last isOpen queue =>
    apply tracks.place index
    rw [queue, List.getElem?_append]
    rw [List.getElem?_append] at found
    split at found
    · rwa [if_pos (by assumption)]
    · rw [if_neg (by assumption)]
      have given := tracks.given
      cases last with
      | some other => exact found
      | none =>
        rw [List.getElem?_singleton] at found
        split at found
        · simp only [Option.getD_none, Option.some.injEq] at found
          omega
        · cases found

theorem Step.honest (tracks : before.Tracks receipt bound)
    (answer : true ∈ after.answers receipt) : bound ≤ after.acknowledged := by
  have honest := tracks.honest
  cases step with
  | accept => exact honest answer
  | @acknowledge front rest queue =>
    simp only [Receipts.answers, filter_append, map_append, answers_completions,
      mem_append, mem_replicate] at answer
    rcases answer with old | ⟨isFront, _⟩
    · exact Nat.le_succ_of_le (honest old)
    · have same : front = some receipt := by
        by_contra other
        exact isFront (by simp [other])
      have place := tracks.place 0 (by rw [queue, same]; rfl)
      exact Nat.le_of_eq place.symm
  | close queue =>
    simp only [Receipts.answers, filter_append, map_append, answers_completions,
      mem_append, mem_replicate, Bool.true_eq_false, and_false, or_false] at answer
    exact honest answer
  | ask => exact honest answer

theorem Step.tracks (tracks : before.Tracks receipt bound) : after.Tracks receipt bound where
  given := Nat.lt_of_lt_of_le tracks.given step.grows.next
  once := by
    rcases step.uses receipt with same | ⟨isNext, _⟩
    · rw [same, tracks.once]
    · exact absurd isNext (Nat.ne_of_lt tracks.given)
  place := step.place tracks
  honest := step.honest tracks

end

theorem Tracks.star (steps : Relation.ReflTransGen Step before after)
    (tracks : before.Tracks receipt bound) : after.Tracks receipt bound := by
  induction steps with
  | refl => exact tracks
  | tail _ step ih => exact step.tracks ih

theorem Sound.star (steps : Relation.ReflTransGen Step before after) (sound : before.Sound) :
    after.Sound := by
  induction steps with
  | refl => exact sound
  | tail _ step ih => exact step.sound ih

theorem Grows.star (steps : Relation.ReflTransGen Step before after) : Grows before after := by
  induction steps with
  | refl => exact .refl _
  | tail _ step ih => exact ih.trans step.grows

theorem Sound.ask {former : List (Option Nat)} {last : Option Nat} (sound : receipts.Sound)
    (isOpen : receipts.closed = false) (queue : receipts.waiting = former ++ [last]) :
    Tracks (last.getD receipts.next) receipts.accepted
      { receipts with
        waiting := former ++ [some (last.getD receipts.next)], next := receipts.next + 1 } := by
  have after := (Step.ask isOpen queue).sound sound
  have occurs := after.once (last.getD receipts.next)
  have counted := sound.counted
  simp only [uses, answers, count_append, count_singleton_self, queue,
    length_append, length_singleton] at occurs counted
  constructor
  · by_contra unused
    have absent := after.fresh _ (Nat.le_of_not_lt unused)
    simp [uses] at absent
  · simp only [uses, answers, count_append, count_singleton_self]
    omega
  · intro index found
    rw [List.getElem?_append] at found
    split at found
    · have former := count_pos_iff.mpr (mem_of_getElem? found)
      omega
    · rw [List.getElem?_singleton] at found
      split at found
      · simp only
        omega
      · cases found
  · intro answer
    have some := length_pos_of_mem answer
    simp only [answers] at some
    omega

/-- A receipt is answered, once, as soon as what it stands for was acknowledged or the queue
is closed. -/
theorem Tracks.answered (tracks : receipts.Tracks receipt bound) (sound : receipts.Sound)
    (finished : receipts.closed = true ∨ bound ≤ receipts.acknowledged) :
    (receipts.answers receipt).length = 1 := by
  have absent : some receipt ∉ receipts.waiting := by
    intro member
    rcases finished with closed | acknowledged
    · exact sound.settled closed receipt member
    · obtain ⟨index, found⟩ := mem_iff_getElem?.mp member
      have place := tracks.place index found
      omega
  have once := tracks.once
  rwa [uses, count_eq_zero.mpr absent, Nat.zero_add] at once

/-- A queue that is closed first answers with `false`, for good. -/
theorem Tracks.refused (tracks : before.Tracks receipt bound) (sound : before.Sound)
    (closed : before.closed = true) (short : before.acknowledged < bound)
    (later : Relation.ReflTransGen Step before after) : after.answers receipt = [false] := by
  obtain ⟨value, answer⟩ := length_eq_one_iff.mp (tracks.answered sound (.inl closed))
  have isFalse : value = false := by
    cases value with
    | false => rfl
    | true =>
      have honest := tracks.honest (by simp [answer])
      omega
  have kept := Tracks.star later tracks
  have length := kept.answered (.star later sound) (.inl ((Grows.star later).closed closed))
  have grown := (Grows.star later).answers receipt
  rw [answer, isFalse] at grown
  exact (grown.eq_of_length (by simp [length])).symm

end Receipts

end YdbSdk.Data
