import YdbSdk.Topic.ReadFlow.Balance

namespace YdbSdk.Topic.ReadFlow

open YdbSdk.Control YdbSdk.Data Code

/-! # The read budget of a session

No event leaves a request unsent that could be sent, and while a response is awaited
bytes are requested.  Together with the balance this means that reading does not stall.
-/

variable {env : Environment} {lostBytes lostSize : Int} {before after state : State}

/-- The only place where the process may stop: a direct read response is refused while
there is no connection. -/
def Tolerated (assertion : Assertion) : Prop := assertion = .noProcessor

abbrev Quiet (kept : State → Prop) : Contract Exception Assertion State α :=
  ⟨fun _ after => kept after, fun _ _ => False, Tolerated⟩

/-- What `ContinueReadingDataImpl` looks at, apart from sizes. -/
def State.stance (state : State) :
    Bool × Bool × Bool × Bool × Bool × Bool × Rat × Bool × List Int × Int × Int :=
  (state.closing, state.aborting, state.waitingReadResponse, state.dataReadingSuspended,
    state.processor, state.connecting, state.averageCompressionRatio, state.initReceived,
    state.requests, state.readSizeBudget, state.readSizeServerDelta)

def State.reading (state : State) :=
  (state.stance, state.compressedDataSize, state.decompressedDataSize)

structure Grows (before after : State) : Prop where
  stance : after.stance = before.stance
  compressed : before.compressedDataSize ≤ after.compressedDataSize
  decompressed : before.decompressedDataSize ≤ after.decompressedDataSize

theorem Grows.of_reading (same : after.reading = before.reading) : Grows before after := by
  obtain ⟨stance, sizes⟩ := Prod.mk.inj same
  obtain ⟨compressed, decompressed⟩ := Prod.mk.inj sizes
  exact ⟨stance, Int.le_of_eq compressed.symm, Int.le_of_eq decompressed.symm⟩

theorem Grows.trans (first : Grows before state) (second : Grows state after) : Grows before after :=
  ⟨second.stance.trans first.stance, Int.le_trans first.compressed second.compressed,
    Int.le_trans first.decompressed second.decompressed⟩

/-- Only requests for a positive size were sent, and a session that awaits a connection
awaits no response. -/
structure Proper (state : State) : Prop where
  requests : ∀ size ∈ state.requests, 0 < size
  connecting : state.connecting = true →
    state.processor = false ∧ state.waitingReadResponse = false

def NoneDue (env : Environment) (state : State) : Prop :=
  env.useMigrationProtocol = false → state.initReceived = true →
    state.mayContinueReading env = true →
      state.readSizeBudget ≤ 0 ∨ state.readSizeServerDelta + state.readSizeBudget ≤ 0

def Awaits (env : Environment) (state : State) : Prop :=
  env.useMigrationProtocol = false → state.processor = true → state.aborting = false →
    state.waitingReadResponse = true → 0 < state.readSizeServerDelta

structure Prompt (env : Environment) (state : State) : Prop where
  proper : Proper state
  noneDue : NoneDue env state
  awaits : Awaits env state

/-- The session counts right, up to lost bytes, and has requested what it could. -/
structure Steady (env : Environment) (lostBytes : Int) (state : State) : Prop where
  sound : Sound env lostBytes 0 state
  prompt : Prompt env state

theorem Grows.proper (grows : Grows before after) (proper : Proper before) : Proper after := by
  have stance := grows.stance
  simp only [State.stance, Prod.mk.injEq] at stance
  obtain ⟨_, _, waiting, _, processor, connecting, _, _, requests, _⟩ := stance
  refine ⟨requests ▸ proper.requests, fun awaited => ?_⟩
  rw [processor, waiting]
  exact proper.connecting (connecting ▸ awaited)

theorem Steady.grows (steady : Steady env lostBytes before) (grows : Grows before after)
    (sound : Sound env lostBytes 0 after) : Steady env lostBytes after := by
  obtain ⟨compressedNonneg, decompressedNonneg⟩ := steady.sound.nonneg
  obtain ⟨stance, compressed, decompressed⟩ := id grows
  simp only [State.stance, Prod.mk.injEq] at stance
  obtain ⟨closing, aborting, waiting, suspended, processor, _, ratio, received, _, budget, delta⟩ :=
    stance
  refine ⟨sound, grows.proper steady.prompt.proper, ?_, ?_⟩
  · unfold NoneDue
    rw [budget, delta, received]
    intro protocol initReceived may
    apply steady.prompt.noneDue protocol initReceived
    simp only [State.mayContinueReading, State.withinMemory, Bool.and_eq_true, decide_eq_true_eq,
      closing, aborting, waiting, suspended, processor, ratio] at may ⊢
    obtain ⟨⟨running, below⟩, _, within⟩ := may
    exact ⟨⟨running, by omega⟩, by omega, by omega⟩
  · unfold Awaits
    rw [aborting, waiting, processor, delta]
    exact steady.prompt.awaits

theorem Steady.of_reading (steady : Steady env lostBytes before)
    (sound : Sound env lostBytes 0 after) (same : after.reading = before.reading) :
    Steady env lostBytes after :=
  steady.grows (.of_reading same) sound

theorem Steady.of_same (steady : Steady env lostBytes before)
    (accounts : after.accounts = before.accounts) (same : after.reading = before.reading) :
    Steady env lostBytes after :=
  steady.of_reading (steady.sound.of_accounts accounts) same

/-! ## Reading on -/

theorem continueReadingDataImpl_steady (sound : Sound env lostBytes 0 state) (proper : Proper state)
    (awaits : Awaits env state) :
    (continueReadingDataImpl env).wp (Quiet (Steady env lostBytes)) state := by
  simp only [continueReadingDataImpl, wp_rules]
  refine ⟨fun may => ?_, fun mayNot => ⟨sound, proper, fun _ _ may => absurd may mayNot, awaits⟩⟩
  have connected : state.connecting ≠ true := by
    intro awaited
    simp [State.mayContinueReading, (proper.connecting awaited).1] at may
  refine ⟨fun migration => ?_, fun _ => ⟨fun short => ?_, fun enough => ?_⟩⟩
  · refine ⟨sound.of_accounts rfl, ⟨proper.requests, fun awaited => absurd awaited connected⟩, ?_, ?_⟩
    · intro protocol
      simp [migration] at protocol
    · intro protocol
      simp [migration] at protocol
  · exact ⟨sound, proper, fun _ _ _ => short, awaits⟩
  · refine ⟨?_, ⟨?_, fun awaited => absurd awaited connected⟩, ?_, ?_⟩
    · -- The budget is now requested.
      refine { sound with budget := fun running protocol => ?_ }
      have equal := sound.budget running protocol
      change 0 + (state.readSizeServerDelta + state.readSizeBudget) + state.serverHeld + lostBytes =
        env.readBufferSize
      omega
    · intro size member
      rcases List.mem_append.mp member with member | member
      · exact proper.requests size member
      · rw [List.mem_singleton.mp member]
        omega
    · intro _ _ mayAgain
      simp [State.mayContinueReading] at mayAgain
    · intro _ _ _ _
      change 0 < state.readSizeServerDelta + state.readSizeBudget
      omega

theorem readNext_steady (sound : Sound env lostBytes 0 state) (proper : Proper state) :
    (readNext env).wp (Quiet (Steady env lostBytes)) state := by
  refine continueReadingDataImpl_steady (sound.of_accounts rfl) ?_ ?_
  · exact ⟨proper.requests, fun awaited => ⟨(proper.connecting awaited).1, rfl⟩⟩
  · intro _ _ _ awaited
    contradiction

structure Stays (env : Environment) (lostBytes lostSize : Int) (before state : State) : Prop where
  sound : Sound env lostBytes lostSize state
  grows : Grows before state

theorem Stays.of_same (stays : Stays env lostBytes lostSize before state)
    (accounts : after.accounts = state.accounts) (same : after.reading = state.reading) :
    Stays env lostBytes lostSize before after :=
  ⟨stays.sound.of_accounts accounts, stays.grows.trans (.of_reading same)⟩

theorem Stays.startTasks (stays : Stays env lostBytes lostSize before state) (index : Nat)
    (availableMemory : Int) :
    Stays env lostBytes lostSize before
      { state.changeInfo index (fun info =>
          { info with tasks := (startTasks availableMemory info.tasks).1 }) with
        decompressedDataSize := state.decompressedDataSize +
          (ReadFlow.startTasks availableMemory (state.info index).tasks).2 } := by
  obtain ⟨shifts, used⟩ := DecompressionTask.startTasks_shifts availableMemory (state.info index).tasks
  constructor
  · refine stays.sound.shift (fun _ => shifts) (fun _ => rfl) rfl rfl (List.append_nil _).symm rfl
      (by simp) ?_ ?_ ?_ ?_ ?_
    all_goals simp [moved, State.changeInfo]
  · refine stays.grows.trans ⟨rfl, Int.le_refl _, ?_⟩
    dsimp only
    omega

theorem startDecompressionLoop_stays (limit : Int) (queue : List Nat)
    (stays : Stays env lostBytes lostSize before state) :
    (startDecompressionLoop env limit queue).wp (Quiet (Stays env lostBytes lostSize before)) state := by
  induction queue generalizing state with
  | nil => exact stays
  | cons index rest ih =>
    have started := stays.startTasks index (max (limit - state.decompressedDataSize) 1)
    simp only [startDecompressionLoop, wp_rules]
    exact ⟨fun _ => ⟨fun _ => ih (started.of_same rfl rfl), fun _ => started⟩, fun _ => stays⟩

theorem startDecompressionTasksImpl_stays (stays : Stays env lostBytes lostSize before state) :
    (startDecompressionTasksImpl env).wp (Quiet (Stays env lostBytes lostSize before)) state := by
  have positive : 0 < env.getDecompressedDataSizeLimit state.averageCompressionRatio :=
    Int.lt_of_lt_of_le Int.zero_lt_one (Int.le_max_left _ _)
  simp only [startDecompressionTasksImpl, wp_rules, positive, decide_true, Bool.true_eq_false,
    false_implies, forall_const, and_true]
  exact ⟨fun _ => stays, fun _ => startDecompressionLoop_stays _ _ stays⟩

theorem resume_steady (sound : Sound env lostBytes 0 state) (proper : Proper state)
    (awaits : Awaits env state) :
    (do
      continueReadingDataImpl env
      startDecompressionTasksImpl env : Session Unit).wp (Quiet (Steady env lostBytes)) state := by
  rw [wp_bind]
  refine wp_imp (continueReadingDataImpl_steady sound proper awaits) ?_
  intro _ middle steady
  refine wp_imp (startDecompressionTasksImpl_stays ⟨Steady.sound steady, .of_reading rfl⟩) ?_
  intro _ after stays
  exact .grows steady (Stays.grows stays) (Stays.sound stays)

theorem returnAndResume_steady {serverBytesSize : Int}
    (sound : Sound env (lostBytes + serverBytesSize) 0 state) (proper : Proper state)
    (awaits : Awaits env state) :
    (do
      returnToBudget env serverBytesSize
      continueReadingDataImpl env
      startDecompressionTasksImpl env : Session Unit).wp (Quiet (Steady env lostBytes)) state := by
  rw [wp_bind, returnToBudget, wp_when]
  simp only [Bool.not_eq_true', Bool.not_eq_false']
  refine ⟨fun protocol => ?_, fun migration => ?_⟩
  · refine resume_steady { sound with budget := fun running _ => ?_ }
      ⟨proper.requests, proper.connecting⟩ awaits
    have equal := sound.budget running protocol
    change state.readSizeBudget + serverBytesSize + state.readSizeServerDelta + state.serverHeld +
      lostBytes = _
    omega
  · refine resume_steady { sound with budget := fun _ protocol => ?_ } proper awaits
    rw [migration] at protocol
    contradiction

/-! ## Ending -/

structure Halts (before after : State) : Prop where
  requests : after.requests = before.requests
  connecting : after.connecting = before.connecting
  waiting : after.waitingReadResponse = before.waitingReadResponse
  processor : before.processor = false → after.processor = false
  halted : after.processor = false ∨ after.aborting = true

theorem Grows.halts (grows : Grows before state) (halts : Halts state after) : Halts before after := by
  have stance := grows.stance
  simp only [State.stance, Prod.mk.injEq] at stance
  obtain ⟨_, _, waiting, _, processor, connecting, _, _, requests, _⟩ := stance
  exact ⟨halts.requests.trans requests, halts.connecting.trans connecting,
    halts.waiting.trans waiting, fun none => halts.processor (processor.trans none), halts.halted⟩

theorem Halts.steady (halts : Halts before after) (proper : Proper before)
    (sound : Sound env lostBytes 0 after) : Steady env lostBytes after := by
  refine ⟨sound, ⟨halts.requests ▸ proper.requests, fun awaited => ?_⟩, ?_, ?_⟩
  · obtain ⟨noProcessor, notWaiting⟩ := proper.connecting (halts.connecting ▸ awaited)
    exact ⟨halts.processor noProcessor, halts.waiting.trans notWaiting⟩
  · intro _ _ may
    rcases halts.halted with noProcessor | aborting
    · simp [State.mayContinueReading, noProcessor] at may
    · simp [State.mayContinueReading, aborting] at may
  · intro _ connected running _
    rcases halts.halted with noProcessor | aborting
    · simp [noProcessor] at connected
    · simp [aborting] at running

theorem Steady.of_aborting (sound : Sound env otherBytes 0 state)
    (proper : Proper state) (aborting : state.aborting = true) : Steady env lostBytes state :=
  Halts.steady ⟨rfl, rfl, rfl, id, .inr aborting⟩ proper (sound.of_aborting aborting)

theorem Sound.abort (sound : Sound env lostBytes lostSize state) :
    Sound env lostBytes lostSize { state with aborting := true } :=
  { sound with decompressed := nofun, budget := nofun }

theorem abortImpl_steady (sound : Sound env lostBytes 0 state) (proper : Proper state) :
    abortImpl.wp (Quiet (Steady env lostBytes)) state :=
  .of_aborting (sound.abort.of_accounts rfl) ⟨proper.requests, proper.connecting⟩ rfl

theorem pushEvent_wp {contract : Contract Exception Assertion State Bool}
    (returns : ∀ taken after, after.accounts = state.accounts → after.reading = state.reading →
      contract.returns taken after) : pushEvent.wp contract state := by
  simp only [pushEvent, wp_rules]
  rcases state.closesAfter with - | - | pushes
  · exact returns true state rfl rfl
  · exact returns false state rfl rfl
  · exact returns true _ rfl rfl

theorem pushOrAbort_steady {next : Session Unit} (steady : Steady env lostBytes state)
    (rest : ∀ after, Steady env lostBytes after → next.wp (Quiet (Steady env lostBytes)) after) :
    (do
      if ← pushEvent then next
      else abortImpl : Session Unit).wp (Quiet (Steady env lostBytes)) state := by
  rw [wp_bind]
  apply pushEvent_wp
  intro taken after accounts same
  have kept := steady.of_same accounts same
  simp only [wp_rules]
  exact ⟨fun _ => rest after kept, fun _ => abortImpl_steady kept.sound kept.prompt.proper⟩

end YdbSdk.Topic.ReadFlow
