import YdbSdk.Control.Run
import YdbSdk.Data.Tally

namespace YdbSdk.Query.FailureCallbacks

open YdbSdk.Control List

/-! # The failure callbacks of a transaction

`ProcessFailure` moves each callback out of the list before it awaits it, so that another call of
it meanwhile finds it empty.  The transactions of the table and of the query client have the same
code; what differs is which requests learn that a commit failed. -/

/-- A call of `ProcessFailure`: the next callback and the number of callbacks when it began. -/
structure Loop where
  position : Nat
  bound : Nat

/-- A callback is named by its position.  History: the callbacks that `ran` and, for each attempt
that failed after its precommit and each rollback, how many callbacks there were. -/
structure State where
  onFailureCallbacks : List Bool := []
  changesAreAccepted : Bool := true
  loops : List Loop := []
  ran : List Nat := []
  failures : List Nat := []

inductive Violation where
  | changesNoLongerAccepted

abbrev Transaction := Code Violation Empty State

def addOnFailureCallback : Transaction Unit := do
  if ← .read State.changesAreAccepted then
    .update fun state => { state with onFailureCallbacks := state.onFailureCallbacks ++ [true] }
  else .raise .changesNoLongerAccepted

def failed : Transaction Unit :=
  .update fun state => { state with failures := state.failures ++ [state.onFailureCallbacks.length] }

def processFailure : Transaction Unit :=
  .update fun state => { state with loops := state.loops ++ [⟨0, state.onFailureCallbacks.length⟩] }

def resume (index : Nat) : Transaction Unit := do
  let state ← .get
  match state.loops[index]? with
  | none => pure ()
  | some loop =>
    .when (decide (loop.position < loop.bound)) (.update fun state =>
      { state with
        onFailureCallbacks := state.onFailureCallbacks.set loop.position false
        ran := if state.onFailureCallbacks[loop.position]? = some true
          then state.ran ++ [loop.position] else state.ran
        loops := state.loops.set index { loop with position := loop.position + 1 } })

/-- The ways in which the outcome of a commit is learned.  A query that commits may also fail in a
later part of its response. -/
inductive Request where
  | commit
  | executeDataQuery
  | streamExecuteQuery
deriving DecidableEq

def attempt (request : Request) (precommit success : Bool) : Transaction Unit := do
  .when (request == .commit) (.update fun state => { state with changesAreAccepted := false })
  .when (precommit && !success) do
    failed
    processFailure

def rollback : Transaction Unit := do
  .update fun state => { state with changesAreAccepted := false }
  failed
  processFailure

def readNext (success : Bool) : Transaction Unit := .when (!success) failed

inductive Event where
  | addOnFailureCallback
  | attempt (request : Request) (precommit success : Bool)
  | readNext (success : Bool)
  | rollback
  | resume (index : Nat)
deriving DecidableEq

def react : Event → Transaction Unit
  | .addOnFailureCallback => addOnFailureCallback
  | .attempt request precommit success => attempt request precommit success
  | .readNext success => readNext success
  | .rollback => rollback
  | .resume index => resume index

/-! ## Callbacks run -/

/-- A query that commits fails at its start if at all. -/
def FailsAtStart : Event → Bool
  | .readNext success => success
  | _ => true

/-- What ran is what is no longer in the list, and a loop has dealt with all before its position. -/
structure Dealt (callbacks : List Bool) (ran : List Nat) (loops : List Loop) (failures : List Nat) :
    Prop where
  once : ran.Nodup
  gone : ∀ position, position ∈ ran ↔ callbacks[position]? = some false
  passed : ∀ loop ∈ loops, loop.bound ≤ callbacks.length ∧
    ∀ position < loop.position, callbacks[position]? = some false
  begun : ∀ count ∈ failures, ∃ loop ∈ loops, count ≤ loop.bound

def State.Dealt (state : State) : Prop :=
  FailureCallbacks.Dealt state.onFailureCallbacks state.ran state.loops state.failures

variable {state : State} {callbacks : List Bool} {ran failures : List Nat} {loops : List Loop}

theorem Dealt.add (dealt : Dealt callbacks ran loops failures) :
    Dealt (callbacks ++ [true]) ran loops failures := by
  have still : ∀ position : Nat, (callbacks ++ [true])[position]? = some false ↔
      callbacks[position]? = some false := by
    intro position
    rcases Nat.lt_trichotomy position callbacks.length with before | rfl | after
    · rw [List.getElem?_append_left before]
    · simp
    · rw [List.getElem?_eq_none (by simp; omega), List.getElem?_eq_none (by omega)]
  refine ⟨dealt.once, fun position => (dealt.gone position).trans (still position).symm,
    fun loop member => ?_, dealt.begun⟩
  obtain ⟨bound, passed⟩ := dealt.passed loop member
  refine ⟨?_, fun position before => (still position).mpr (passed position before)⟩
  rw [length_append]
  omega

theorem Dealt.fail (dealt : Dealt callbacks ran loops failures) :
    Dealt callbacks ran (loops ++ [⟨0, callbacks.length⟩]) (failures ++ [callbacks.length]) := by
  refine ⟨dealt.once, dealt.gone, fun loop member => ?_, fun count member => ?_⟩
  · rcases mem_append.mp member with old | new
    · exact dealt.passed loop old
    · rw [mem_singleton.mp new]
      exact ⟨Nat.le_refl _, nofun⟩
  · rcases mem_append.mp member with old | new
    · obtain ⟨loop, inside, bound⟩ := dealt.begun count old
      exact ⟨loop, mem_append_left _ inside, bound⟩
    · rw [mem_singleton.mp new]
      exact ⟨_, mem_append_right _ (mem_singleton_self _), Nat.le_refl _⟩

theorem Dealt.resume (dealt : Dealt callbacks ran loops failures)
    (found : loops[index]? = some loop) (more : loop.position < loop.bound) :
    Dealt (callbacks.set loop.position false)
      (if callbacks[loop.position]? = some true then ran ++ [loop.position] else ran)
      (loops.set index { loop with position := loop.position + 1 }) failures := by
  obtain ⟨bound, passed⟩ := dealt.passed loop (mem_of_getElem? found)
  have inside : loop.position < callbacks.length := by omega
  have gone : ∀ position, (callbacks.set loop.position false)[position]? = some false ↔
      position = loop.position ∨ callbacks[position]? = some false := by
    intro position
    by_cases same : position = loop.position
    · simp [same, inside]
    · simp [List.getElem?_set_ne (.symm same), same]
  have ranNow : ∀ position, position ∈
      (if callbacks[loop.position]? = some true then ran ++ [loop.position] else ran) ↔
      position = loop.position ∨ position ∈ ran := by
    intro position
    by_cases present : callbacks[loop.position]? = some true
    · simp only [if_pos present, mem_append, mem_singleton, or_comm]
    · have absent : callbacks[loop.position]? = some false := by
        rw [List.getElem?_eq_getElem inside] at present ⊢
        simpa using present
      rw [if_neg present]
      constructor
      · exact .inr
      · rintro (rfl | member)
        · exact (dealt.gone _).mpr absent
        · exact member
  refine ⟨?_, fun position => ?_, fun other member => ?_, fun count member => ?_⟩
  · split
    case isTrue present =>
      have fresh : loop.position ∉ ran := by
        rw [dealt.gone, present]
        simp
      exact (@perm_append_comm _ [_] ran).nodup_iff.mp (nodup_cons.mpr ⟨fresh, dealt.once⟩)
    case isFalse => exact dealt.once
  · rw [ranNow, gone, dealt.gone]
  · rw [length_set]
    rcases mem_or_eq_of_mem_set member with old | rfl
    · obtain ⟨otherBound, otherPassed⟩ := dealt.passed other old
      exact ⟨otherBound, fun position before => (gone position).mpr (.inr (otherPassed position before))⟩
    · refine ⟨bound, fun position before => (gone position).mpr ?_⟩
      rcases Nat.lt_succ_iff_lt_or_eq.mp before with earlier | now
      · exact .inr (passed position earlier)
      · exact .inl now
  · obtain ⟨other, old, enough⟩ := dealt.begun count member
    obtain ⟨place, foundOther⟩ := List.getElem?_of_mem old
    by_cases same : place = index
    · subst same
      cases found.symm.trans foundOther
      exact ⟨_, mem_set (by simpa using (List.getElem?_eq_some_iff.mp found).1) _, enough⟩
    · exact ⟨other, mem_of_getElem? ((List.getElem?_set_ne (.symm same)).trans foundOther), enough⟩

theorem react_dealt (event : Event) (start : FailsAtStart event = true) (state : State)
    (dealt : state.Dealt) : (react event).wp (.keeping State.Dealt) state := by
  cases event with
  | addOnFailureCallback =>
    simp only [react, addOnFailureCallback, Code.wp_rules]
    exact ⟨fun _ => dealt.add, fun _ => dealt⟩
  | attempt request precommit success =>
    simp only [react, attempt, Code.wp_rules]
    exact ⟨fun _ => ⟨fun _ => dealt.fail, fun _ => dealt⟩, fun _ => ⟨fun _ => dealt.fail, fun _ => dealt⟩⟩
  | readNext success =>
    simp only [react, readNext, Code.wp_rules]
    have good : success = true := start
    simp only [good]
    exact ⟨by simp, fun _ => dealt⟩
  | rollback =>
    exact dealt.fail
  | resume index =>
    simp only [react, resume, Code.wp_rules]
    cases found : state.loops[index]? with
    | none => exact dealt
    | some loop =>
      simp only [Code.wp_rules]
      exact ⟨fun more => dealt.resume found (of_decide_eq_true more), fun _ => dealt⟩

end YdbSdk.Query.FailureCallbacks
