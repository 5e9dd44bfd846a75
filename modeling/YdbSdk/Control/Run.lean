import YdbSdk.Control.Code

namespace YdbSdk.Control

/-! # Runs of an event-driven process

A process reacts to events, one atomic reaction after another.  A reaction that
throws leaves the state it had reached; a reaction that fails an assertion ends
the process, so no state follows it.
-/

/-- The state after one reaction, or the assertion that ended the process. -/
def Code.step (code : Code ε φ σ Unit) (state : σ) : Except φ σ :=
  match code state with
  | .returned _ after => .ok after
  | .thrown _ after => .ok after
  | .stopped assertion => .error assertion

def run (react : ι → Code ε φ σ Unit) : σ → List ι → Except φ σ
  | state, [] => .ok state
  | state, event :: rest =>
    match (react event).step state with
    | .ok after => run react after rest
    | .error assertion => .error assertion

/-- The states a process can reach when every event it reacts to is permitted in
the state it occurs in. -/
inductive Reachable (react : ι → Code ε φ σ Unit) (permitted : σ → ι → Prop) (start : σ) :
    σ → Prop where
  | start : Reachable react permitted start start
  | step {before after : σ} (event : ι) (earlier : Reachable react permitted start before)
      (allowed : permitted before event) (taken : (react event).step before = .ok after) :
      Reachable react permitted start after

def Permitted (react : ι → Code ε φ σ Unit) (permitted : σ → ι → Prop) : σ → List ι → Prop
  | _, [] => True
  | state, event :: rest =>
    permitted state event ∧
      ∀ after, (react event).step state = .ok after → Permitted react permitted after rest

section

variable {react : ι → Code ε φ σ Unit} {permitted : σ → ι → Prop} {start state after : σ}

theorem Code.wp_step {code : Code ε φ σ Unit} {invariant : σ → Prop} {stops : φ → Prop}
    (met : code.wp (.keeping invariant stops) state) (taken : code.step state = .ok after) :
    invariant after := by
  unfold Code.wp at met
  unfold Code.step at taken
  cases ending : code state <;> rw [ending] at met taken
  · cases taken; exact met
  · cases taken; exact met
  · contradiction

theorem Code.wp_step_error {code : Code ε φ σ Unit} (met : code.wp (.keeping invariant stops) state)
    (failed : code.step state = .error assertion) : stops assertion := by
  unfold Code.wp at met
  unfold Code.step at failed
  cases ending : code state <;> rw [ending] at met failed
  · contradiction
  · contradiction
  · cases failed; exact met

/-- Code whose contract allows no assertion to fail leads to a state. -/
theorem Code.exists_step {code : Code ε φ σ Unit} {invariant : σ → Prop}
    (met : code.wp (.keeping invariant fun _ => False) state) : ∃ after, code.step state = .ok after := by
  cases taken : code.step state with
  | ok after => exact ⟨after, rfl⟩
  | error assertion => exact (Code.wp_step_error met taken).elim

/-- An invariant that every permitted reaction keeps holds in every reachable
state. -/
theorem Reachable.invariant {invariant : σ → Prop} {stops : φ → Prop}
    (reached : Reachable react permitted start state) (initially : invariant start)
    (kept : ∀ before event, invariant before → permitted before event →
      (react event).wp (.keeping invariant stops) before) : invariant state := by
  induction reached with
  | start => exact initially
  | step event _ allowed taken ih => exact Code.wp_step (kept _ event ih allowed) taken

/-- Under an invariant, permitted reactions stop only at the assertions their
contract allows. -/
theorem Reachable.stops_only {invariant : σ → Prop}
    (reached : Reachable react permitted start state) (initially : invariant start)
    (kept : ∀ before event, invariant before → permitted before event →
      (react event).wp (.keeping invariant stops) before)
    (allowed : permitted state event) (failed : (react event).step state = .error assertion) :
    stops assertion :=
  Code.wp_step_error (kept state event (reached.invariant initially kept) allowed) failed

theorem Reachable.trans (first : Reachable react permitted start state)
    (second : Reachable react permitted state after) : Reachable react permitted start after := by
  induction second with
  | start => exact first
  | step event _ allowed taken ih => exact .step event ih allowed taken

theorem Reachable.mono (reached : Reachable react permitted start state)
    (included : ∀ state event, permitted state event → wider state event) :
    Reachable react wider start state := by
  induction reached with
  | start => exact .start
  | step event _ allowed taken ih => exact .step event ih (included _ event allowed) taken

theorem Reachable.of_run (allowed : Permitted react permitted start events)
    (ran : run react start events = .ok after) : Reachable react permitted start after := by
  induction events generalizing start with
  | nil => cases ran; exact .start
  | cons event rest ih =>
    simp only [run] at ran
    cases taken : (react event).step start with
    | error assertion => rw [taken] at ran; contradiction
    | ok next =>
      rw [taken] at ran
      exact (Reachable.step event .start allowed.1 taken).trans (ih (allowed.2 next taken) ran)

theorem permitted_of_always (always : ∀ state event, permitted state event) :
    Permitted react permitted start events := by
  induction events generalizing start with
  | nil => trivial
  | cons event rest ih => exact ⟨always start event, fun _ _ => ih⟩

def checked (react : ι → Code ε φ σ Unit) (check : σ → ι → Bool) : σ → List ι → Bool
  | _, [] => true
  | state, event :: rest =>
    check state event &&
      match (react event).step state with
      | .ok after => checked react check after rest
      | .error _ => true

theorem permitted_of_checked {events : List ι} {check : σ → ι → Bool}
    (allows : ∀ state event, check state event = true → permitted state event)
    (passed : checked react check start events = true) : Permitted react permitted start events := by
  induction events generalizing start with
  | nil => trivial
  | cons event rest ih =>
    rw [checked, Bool.and_eq_true] at passed
    refine ⟨allows start event passed.1, fun after taken => ih ?_⟩
    have later := passed.2
    rw [taken] at later
    exact later

def endsWith (react : ι → Code ε φ σ Unit) (start : σ) (events : List ι) (check : σ → Bool) : Bool :=
  match run react start events with
  | .ok after => check after
  | .error _ => false

instance decidableEnding {outcome : Except φ σ} {goal : σ → Prop} [DecidablePred goal] :
    Decidable (∃ after, outcome = .ok after ∧ goal after) :=
  match outcome with
  | .ok after => decidable_of_iff (goal after) (by simp)
  | .error _ => isFalse (by simp)

instance decidablePermitted [∀ state event, Decidable (permitted state event)] (state : σ) :
    (events : List ι) → Decidable (Permitted react permitted state events)
  | [] => isTrue trivial
  | event :: rest =>
    have : Decidable (∀ after, (react event).step state = .ok after → Permitted react permitted after rest) :=
      match (react event).step state with
      | .ok after =>
        have := decidablePermitted after rest
        decidable_of_iff (Permitted react permitted after rest) (by simp)
      | .error _ => isTrue (by simp)
    inferInstanceAs (Decidable (_ ∧ _))

/-- A run of permitted events reaches the state it ends in. -/
theorem exists_reachable {goal : σ → Prop} (events : List ι)
    (ran : Permitted react permitted start events ∧
      ∃ after, run react start events = .ok after ∧ goal after) :
    ∃ after, Reachable react permitted start after ∧ goal after := by
  obtain ⟨allowed, after, ends, holds⟩ := ran
  exact ⟨after, .of_run allowed ends, holds⟩

end

end YdbSdk.Control
