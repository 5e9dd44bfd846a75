import YdbSdk.Topic.ReadFlow.Counters

namespace YdbSdk.Topic.ReadFlow

open YdbSdk.Control YdbSdk.Data

/-! # The read budget in every run -/

variable {env : Environment} {state : State}

abbrev ReachesKeeping (env : Environment) (state : State) : Prop :=
  Reachable (react env) (fun state event => KeepsBytes env state event ∧ KeepsSizes event) (start env)
    state

theorem steady_of_reachesKeeping (reached : ReachesKeeping env state) : Steady env 0 state := by
  apply reached.invariant (steady_start env)
  intro before event steady keeps
  refine Code.wp_mono_stops (react_ends steady) (fun _ after ends => ?_)
    (fun _ _ refused => absurd keeps.2 refused) (fun _ => id)
  obtain ⟨bytes, kept, after⟩ := ends keeps.2
  exact kept keeps.1 ▸ after

/-- The session is connected, not told to stop, and has room: only its budget decides
whether it asks for data. -/
structure State.HasRoom (env : Environment) (state : State) : Prop where
  initReceived : state.initReceived = true
  processor : state.processor = true
  closing : state.closing = false
  suspended : state.dataReadingSuspended = false
  compressed : state.compressedDataSize < env.getCompressedDataSizeLimit state.averageCompressionRatio
  memory : state.withinMemory env = true

/-- In every run without an abort in which the bytes of each response find an info, the
budget, what is requested from the server and what infos and waiting calls hold add up to
the size of the buffer.  Every request is for a positive size, and a session that has room
has requested bytes or will get some back from an info. -/
theorem read_budget_is_conserved (env : Environment) (protocol : env.useMigrationProtocol = false)
    {state : State} (reached : ReachesKeeping env state) (running : state.aborting = false) :
    state.readSizeBudget + state.readSizeServerDelta + state.serverHeld = env.readBufferSize ∧
    (∀ size ∈ state.requests, 0 < size) ∧
    (state.HasRoom env → 0 < state.readSizeServerDelta ∨ 0 < state.serverHeld) := by
  obtain ⟨sound, prompt⟩ := steady_of_reachesKeeping reached
  have balance := sound.budget running protocol
  refine ⟨by omega, prompt.proper.requests, fun room => ?_⟩
  have positive : 1 ≤ env.readBufferSize := Int.le_max_left _ _
  cases waiting : state.waitingReadResponse with
  | true => exact .inl (prompt.awaits protocol room.processor running waiting)
  | false =>
    have may : state.mayContinueReading env = true := by
      simp [State.mayContinueReading, running, waiting, room.closing, room.suspended, room.processor,
        room.compressed, room.memory]
    have due := prompt.noneDue protocol room.initReceived may
    omega

instance (env : Environment) (state : State) : (event : Event) → Decidable (KeepsBytes env state event) := by
  rintro (- | - | - | - | - | - | - | ⟨-, -, - | -⟩) <;> dsimp only [KeepsBytes] <;> infer_instance

theorem read_budget_is_conserved_of_two_messages :
    ∃ state, ReachesKeeping smallSession state ∧ state.aborting = false ∧
      state.requests = [100, 50] ∧ (∀ size ∈ state.requests, 0 < size) ∧
      state.readSizeBudget + state.readSizeServerDelta + state.serverHeld = 100 := by
  obtain ⟨state, reached, running, requests⟩ : ∃ state, ReachesKeeping smallSession state ∧
      state.aborting = false ∧ state.requests = [100, 50] :=
    exists_reachable twoMessages (by decide +kernel)
  obtain ⟨balance, positive, _⟩ := read_budget_is_conserved smallSession rfl reached running
  have size : smallSession.readBufferSize = 100 := by decide +kernel
  exact ⟨state, reached, running, requests, positive, size ▸ balance⟩

def lostResponse : List Event :=
  [.onConnect, .onInitResponse, .startPartitionSession 1, .stopPartitionSession 1,
    .onReadResponse 100 [⟨1, [{ size := 20 }], false⟩], .reconnect true, .onConnect, .onInitResponse]

/-- The bytes of such a response are lost: the session has room, but neither budget nor
requested bytes. -/
theorem stopped_partition_response_drains_budget :
    ∃ state, ReachesWhole smallSession state ∧ state.aborting = false ∧
      state.HasRoom smallSession ∧ smallSession.readBufferSize = 100 ∧
      state.readSizeBudget = 0 ∧ state.readSizeServerDelta = 0 ∧ state.serverHeld = 0 := by
  obtain ⟨state, reached, ⟨running, received, connected, unclosed, reading⟩, below, within, drained⟩ : ∃ state,
      ReachesWhole smallSession state ∧ (state.aborting = false ∧ state.initReceived = true ∧
        state.processor = true ∧ state.closing = false ∧ state.dataReadingSuspended = false) ∧
      state.compressedDataSize < smallSession.getCompressedDataSizeLimit state.averageCompressionRatio ∧
      state.withinMemory smallSession = true ∧ smallSession.readBufferSize = 100 ∧
      state.readSizeBudget = 0 ∧ state.readSizeServerDelta = 0 ∧ state.serverHeld = 0 :=
    exists_reachable lostResponse (by decide +kernel)
  exact ⟨state, reached, running, ⟨received, connected, unclosed, reading, below, within⟩, drained⟩

end YdbSdk.Topic.ReadFlow
