import YdbSdk.Control.Run
import YdbSdk.Data.Tally

namespace YdbSdk.Query.AttachStream

open YdbSdk.Control

/-! # The attach stream of a query session

The callback of each read borrows the session through `TSafeTSessionImplHolder`: the one that finds
the semaphore at zero owns the session until it stores zero again.  It starts the next read before
that.  Each atomic access is one step. -/

inductive Message where
  | sessionShutdown
  | nodeShutdown
  | other
deriving DecidableEq

inductive Phase where
  | arrived
  | owning
  /-- The message is processed, and the next read is started if `next`. -/
  | handled (next : Bool)
  | releasing
  | ended
  /-- The session was not lent. -/
  | dropped
deriving DecidableEq

/-- The end of the stream has no message. -/
structure Callback where
  message : Option Message
  phase : Phase := .arrived
deriving DecidableEq

/-- A callback runs on a thread of its own, which is named by its index.  `destroying` is set by the
destructor, which is done when it holds the session. -/
structure State where
  semaphore : Nat := 0
  ownerThread : Option Nat := none
  reading : Bool := true
  callbacks : List Callback := []
  destroying : Bool := false
  destroyed : Bool := false

abbrev Reader := Code Empty Empty State

def setPhase (index : Nat) (phase : Phase) : Reader Unit :=
  .update fun state =>
    { state with
      callbacks := state.callbacks.modify index fun callback => { callback with phase := phase } }

def receive (message : Option Message) : Reader Unit := do
  .when (← .read State.reading) (.update fun state =>
    { state with reading := false, callbacks := state.callbacks ++ [⟨message, .arrived⟩] })

def trySharedOwning (index : Nat) : Reader Unit := do
  let state ← .get
  .update fun state => { state with semaphore := state.semaphore + 1 }
  if state.semaphore = 0 then do
    .update fun state => { state with ownerThread := some index }
    setPhase index .owning
  else setPhase index .dropped

/-- `HandleAttachSessionState` tells whether to go on reading. -/
def handleAttachSessionState : Message → Bool
  | .sessionShutdown => false
  | .nodeShutdown => false
  | .other => true

def handle (index : Nat) (message : Option Message) : Reader Unit :=
  setPhase index (.handled (message.any handleAttachSessionState))

def startAsyncRead (index : Nat) (next : Bool) : Reader Unit := do
  .when next (.update fun state => { state with reading := true })
  setPhase index .releasing

def release (index : Nat) : Reader Unit := do
  .update fun state => { state with ownerThread := none, semaphore := 0 }
  setPhase index .ended

def proceed (index : Nat) : Reader Unit := do
  match (← .read State.callbacks)[index]? with
  | none => pure ()
  | some callback =>
    match callback.phase with
    | .arrived => trySharedOwning index
    | .owning => handle index callback.message
    | .handled next => startAsyncRead index next
    | .releasing => release index
    | .ended | .dropped => pure ()

/-- A round of `WaitAndLock`: the thread that owns the session need not wait. -/
def waitAndLock (thread : Option Nat) : Reader Unit := do
  let state ← .get
  if thread.isSome && state.ownerThread == thread then
    .update fun state => { state with destroyed := true }
  else
    .when (state.semaphore == 0)
      (.update fun state => { state with semaphore := 1, destroyed := true })

inductive Event where
  | receive (message : Option Message)
  | proceed (index : Nat)
  | destroy
  | waitAndLock (thread : Option Nat)
deriving DecidableEq

def react : Event → Reader Unit
  | .receive message => receive message
  | .proceed index => proceed index
  | .destroy => .update fun state => { state with destroying := true }
  | .waitAndLock thread => do .when (← .read State.destroying) (waitAndLock thread)

/-! ## Messages are processed -/

def Phase.owns : Phase → Bool
  | .owning | .handled _ | .releasing => true
  | .arrived | .ended | .dropped => false

/-- A callback asks for the session when no other has it. -/
def InTurn (state : State) : Event → Prop
  | .proceed index => (state.callbacks[index]?.map Callback.phase = some .arrived) →
      state.destroying = true ∨ ∀ callback ∈ state.callbacks, callback.phase.owns = false
  | _ => True

instance (state : State) (event : Event) : Decidable (InTurn state event) := by
  cases event <;> unfold InTurn <;> infer_instance

/-- The semaphore is raised by a callback that has the session, and no message is dropped. -/
def Lent (semaphore : Nat) (callbacks : List Callback) : Prop :=
  (semaphore ≠ 0 → ∃ callback ∈ callbacks, callback.phase.owns = true) ∧
    ∀ callback ∈ callbacks, callback.phase ≠ .dropped

def Safe (state : State) : Prop := state.destroying = false → Lent state.semaphore state.callbacks

variable {state : State} {index semaphore : Nat} {callback : Callback} {callbacks : List Callback}

theorem Lent.move (lent : Lent state.semaphore callbacks) (found : callbacks[index]? = some callback)
    {phase : Phase} (kept : phase ≠ .dropped) (owns : semaphore ≠ 0 → phase.owns = true) :
    Lent semaphore (callbacks.modify index fun callback => { callback with phase := phase }) := by
  refine ⟨fun raised => ?_, fun other member => ?_⟩
  · refine ⟨{ callback with phase := phase }, List.mem_of_getElem? (i := index) ?_, owns raised⟩
    simp [found]
  · rcases Data.mem_modify member with old | ⟨_, _, rfl⟩
    · exact lent.2 other old
    · exact kept

theorem proceed_safe (safe : Safe state) (inTurn : InTurn state (.proceed index)) :
    (proceed index).wp (.keeping Safe) state := by
  simp only [proceed, Code.wp_rules]
  cases found : state.callbacks[index]? with
  | none => exact safe
  | some callback =>
    obtain ⟨message, phase⟩ := callback
    cases phase with
    | arrived =>
      simp only [trySharedOwning, Code.wp_rules]
      refine ⟨fun free alive => ?_, fun raised alive => ?_⟩
      · exact (safe alive).move found (by simp) fun _ => rfl
      · rcases inTurn (by rw [found]; rfl) with destroying | alone
        · rw [destroying] at alive
          contradiction
        · obtain ⟨other, member, owns⟩ := (safe alive).1 raised
          rw [alone other member] at owns
          contradiction
    | owning =>
      intro alive
      exact (safe alive).move found (by simp) fun _ => rfl
    | handled next =>
      simp only [startAsyncRead, Code.wp_rules]
      exact ⟨fun _ alive => (safe alive).move found (by simp) fun _ => rfl,
        fun _ alive => (safe alive).move found (by simp) fun _ => rfl⟩
    | releasing =>
      intro alive
      exact (safe alive).move found (by simp) fun raised => absurd rfl raised
    | ended => exact safe
    | dropped => exact safe

theorem react_safe {event : Event} (safe : Safe state) (inTurn : InTurn state event) :
    (react event).wp (.keeping Safe) state := by
  cases event with
  | receive message =>
    simp only [react, receive, Code.wp_rules]
    refine ⟨fun _ alive => ?_, fun _ => safe⟩
    obtain ⟨raised, kept⟩ := safe alive
    refine ⟨fun up => ?_, fun other member => ?_⟩
    · obtain ⟨owner, member, owns⟩ := raised up
      exact ⟨owner, List.mem_append_left _ member, owns⟩
    · rcases List.mem_append.mp member with old | new
      · exact kept other old
      · simp [List.mem_singleton.mp new]
  | proceed index => exact proceed_safe safe inTurn
  | destroy => rintro ⟨⟩
  | waitAndLock thread =>
    simp only [react, waitAndLock, Code.wp_rules]
    refine ⟨fun destroying => ?_, fun _ => safe⟩
    have never : ¬ state.destroying = false := by simp [destroying]
    exact ⟨fun _ alive => absurd alive never,
      fun _ => ⟨fun _ alive => absurd alive never, fun _ => safe⟩⟩

/-- In every run whose callbacks ask for the session in turn no message that is received is dropped
as long as the session is not being destroyed. -/
theorem session_state_processed (reached : Reachable react InTurn {} state)
    (alive : state.destroying = false) : ∀ callback ∈ state.callbacks, callback.phase ≠ .dropped :=
  (@Reachable.invariant _ _ _ _ _ _ _ _ Safe (fun _ => True) reached (fun _ => ⟨nofun, nofun⟩)
    fun _ _ => react_safe) alive |>.2

/-- Both messages of a session are processed. -/
theorem session_state_processed_twice :
    ∃ state, Reachable react InTurn {} state ∧
      state.callbacks = [⟨some .other, .ended⟩, ⟨some .nodeShutdown, .handled false⟩] ∧
      ∀ callback ∈ state.callbacks, callback.phase ≠ .dropped := by
  obtain ⟨state, reached, alive, callbacks⟩ : ∃ state, Reachable react InTurn {} state ∧
      state.destroying = false ∧
      state.callbacks = [⟨some .other, .ended⟩, ⟨some .nodeShutdown, .handled false⟩] :=
    exists_reachable [.receive (some .other), .proceed 0, .proceed 0, .proceed 0,
      .receive (some .nodeShutdown), .proceed 0, .proceed 1, .proceed 1] (by decide +kernel)
  exact ⟨state, reached, callbacks, session_state_processed reached alive⟩

/-- The message about the shutdown comes before the callback that started its read gives the session
back: it is dropped, and nothing is read any more. -/
theorem session_state_dropped :
    ∃ state, run react {} [.receive (some .other), .proceed 0, .proceed 0, .proceed 0,
        .receive (some .nodeShutdown), .proceed 1, .proceed 0] = .ok state ∧
      state.callbacks = [⟨some .other, .ended⟩, ⟨some .nodeShutdown, .dropped⟩] ∧
      state.destroying = false ∧ state.reading = false := by
  decide +kernel

end YdbSdk.Query.AttachStream
