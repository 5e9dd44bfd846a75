import YdbSdk.Control.Run
import YdbSdk.Data.Assoc

namespace YdbSdk.Observability

open YdbSdk.Control YdbSdk.Data

/-! # The thread states of metric buffers

Every thread keeps a table of its states, in which it looks up the address of a buffer.  The
tables outlive the buffers, and a new buffer may get the address of a destroyed one.
-/

/-- It is active until the thread that owns it exits. -/
structure ThreadState where
  owner : Nat
  number : Nat

/-- `buffers` are the addresses of the buffers that exist, `threadStates` the states registered
with them, and `tlsTables` the tables of all threads. -/
structure State where
  buffers : List Nat := []
  threadStates : List (Nat × ThreadState) := []
  tlsTables : Assoc (Nat × Nat) ThreadState := []
  exited : List Nat := []
  acquired : Nat := 0

/-- The state an update of a thread goes to. -/
def acquireThreadState (thread address : Nat) (state : State) : ThreadState × State :=
  match state.tlsTables.find (thread, address) with
  | some known => (known, state)
  | none =>
    let fresh := ⟨thread, state.acquired⟩
    (fresh, { state with
      threadStates := state.threadStates ++ [(address, fresh)]
      tlsTables := state.tlsTables.insert (thread, address) fresh
      acquired := state.acquired + 1 })

/-- Of the states of exited threads those stay that are not empty. -/
def flushAll (address : Nat) (isEmpty : ThreadState → Bool) (state : State) : State :=
  { state with
    threadStates := state.threadStates.filter fun entry =>
      entry.1 ≠ address || entry.2.owner ∉ state.exited || !isEmpty entry.2 }

inductive Event where
  | create (address : Nat)
  | destroy (address : Nat)
  | update (thread address : Nat)
  | flush (address : Nat) (isEmpty : ThreadState → Bool)
  | exit (thread : Nat)

def react (event : Event) : Code Empty Empty State Unit :=
  .update fun state =>
    match event with
    | .create address => { state with buffers := address :: state.buffers }
    | .destroy address =>
      { state with
        buffers := state.buffers.filter (· ≠ address)
        threadStates := state.threadStates.filter (·.1 ≠ address) }
    | .update thread address => (acquireThreadState thread address state).2
    | .flush address isEmpty => flushAll address isEmpty state
    | .exit thread => { state with exited := thread :: state.exited }

/-- A buffer is used while it exists and by running threads, and two buffers that exist have
different addresses. -/
def Possible (state : State) : Event → Prop
  | .create address => address ∉ state.buffers
  | .destroy address | .flush address _ => address ∈ state.buffers
  | .update thread address => address ∈ state.buffers ∧ thread ∉ state.exited
  | .exit _ => True

/-- No buffer is created at an address that stands in the table of a running thread. -/
def Permitted (state : State) (event : Event) : Prop :=
  Possible state event ∧ ∀ address, event = .create address →
    ∀ thread, thread ∉ state.exited → state.tlsTables.find (thread, address) = none

def Registered (state : State) : Prop :=
  ∀ thread address threadState, thread ∉ state.exited →
    state.tlsTables.find (thread, address) = some threadState →
    threadState.owner = thread ∧
      (address ∈ state.buffers → (address, threadState) ∈ state.threadStates)

variable {state : State} {thread address : Nat}

theorem react_keeps_registered (registered : Registered state)
    (permitted : Permitted state event) : (react event).wp (.keeping Registered) state := by
  cases event with
  | create address =>
    intro thread other threadState running found
    have unknown := permitted.2 address rfl thread running
    have known := registered thread other threadState running found
    grind
  | destroy address =>
    intro thread other threadState running found
    have known := registered thread other threadState running found
    grind
  | update thread address =>
    simp only [react, acquireThreadState, Code.wp_rules]
    cases looked : state.tlsTables.find (thread, address) with
    | some known => exact registered
    | none =>
      intro other place threadState running found
      have known := registered other place threadState running
      grind [Assoc.find_insert]
  | flush address isEmpty =>
    intro thread other threadState running found
    have known := registered thread other threadState running found
    grind [flushAll]
  | exit thread =>
    intro other place threadState running found
    exact registered other place threadState (by grind) found

end YdbSdk.Observability
