import YdbSdk.Topic.ReadFlow.Responses

namespace YdbSdk.Topic.ReadFlow

open YdbSdk.Control YdbSdk.Data Code List

/-! # The size counters of a session in every run -/

variable {env : Environment} {lostBytes lostSize : Int} {state : State}

theorem onConnect_steady (steady : Steady env lostBytes state) :
    onConnect.wp (Quiet (Steady env lostBytes)) state := by
  have proper := steady.prompt.proper
  simp only [onConnect, wp_rules]
  refine ⟨fun awaited => ⟨fun _ => ?_, fun _ => ?_⟩, fun _ => steady⟩
  · exact .of_aborting (steady.sound.abort.of_accounts rfl) ⟨proper.requests, by simp⟩ rfl
  · refine ⟨steady.sound.of_accounts rfl, ⟨proper.requests, by simp⟩, by rintro _ ⟨⟩, ?_⟩
    intro _ _ _ waiting
    change state.waitingReadResponse = true at waiting
    rw [(proper.connecting awaited).2] at waiting
    contradiction

theorem destroyAllPartitionStreamsImpl_steady (streams : List Nat)
    (steady : Steady env lostBytes state) :
    (destroyAllPartitionStreamsImpl streams).wp (Quiet (Steady env lostBytes)) state := by
  induction streams generalizing state with
  | nil => exact steady.of_same rfl rfl
  | cons stream rest ih => exact pushOrAbort_steady steady fun _ => ih

/-- What was requested on the old connection is in the budget again, and without a
processor nothing can be due. -/
theorem Steady.reset (steady : Steady env lostBytes state) (connecting : Bool) :
    Steady env lostBytes
      { state with
        processor := false, waitingReadResponse := false, connecting
        readSizeBudget := state.readSizeBudget + state.readSizeServerDelta
        readSizeServerDelta := 0 } := by
  refine ⟨{ steady.sound with budget := fun running protocol => ?_ },
    ⟨steady.prompt.proper.requests, fun _ => ⟨rfl, rfl⟩⟩, ?_, nofun⟩
  · have equal := steady.sound.budget running protocol
    change state.readSizeBudget + state.readSizeServerDelta + 0 + state.serverHeld + lostBytes = _
    omega
  · intro _ _ may
    simp [State.mayContinueReading] at may

theorem reconnect_steady (retry : Bool) (steady : Steady env lostBytes state) :
    (reconnect retry).wp (Quiet (Steady env lostBytes)) state := by
  simp only [reconnect, wp_rules]
  refine ⟨fun _ => steady.of_same rfl rfl, fun _ => ⟨fun _ => ?_, fun _ => ?_⟩⟩
  · exact destroyAllPartitionStreamsImpl_steady _ (steady.reset true)
  · exact (steady.reset state.connecting).of_same rfl rfl

theorem announceStream_steady (streams : State → List Nat) (steady : Steady env lostBytes state) :
    (do
      .update fun state => { state with partitionStreams := streams state }
      if ← pushEvent then pure ()
      else abortImpl : Session Unit).wp (Quiet (Steady env lostBytes)) state := by
  rw [wp_bind]
  exact pushOrAbort_steady (steady.of_same rfl rfl) fun _ => id

/-- The bytes of a response are in the budget or with an info afterwards. -/
def KeepsBytes (env : Environment) (state : State) : Event → Prop
  | .onReadResponse bytesSize partitions => state.reads = true →
      bytesSize = 0 ∨ state.takesBytes env partitions = true
  | .onDirectReadDone _ bytesSize (some data) => state.reads = true →
      bytesSize = 0 ∨ state.takesBytes env [data] = true
  | _ => True

def KeepsSizes : Event → Prop
  | .onReadResponse _ partitions => ∀ data ∈ partitions, data.Whole
  | .onDataBatch partitions => ∀ data ∈ partitions, data.Whole
  | .onDirectReadDone _ _ (some data) => data.Whole
  | _ => True

theorem onReadDone_wp
    (ignored : contract.returns () state) (handled : handler.wp contract state) :
    (onReadDone handler).wp contract state := by
  simp only [onReadDone, wp_rules]
  exact ⟨fun _ => handled, fun _ => ignored⟩

theorem react_steady
    (noResponse : ∀ bytesSize partitions, event ≠ .onReadResponse bytesSize partitions)
    (noBatch : ∀ partitions, event ≠ .onDataBatch partitions)
    (noDirectRead : ∀ partitionSession bytesSize data,
      event ≠ .onDirectReadDone partitionSession bytesSize (some data))
    (steady : Steady env lostBytes state) :
    (react env event).wp (Quiet (Steady env lostBytes)) state := by
  obtain ⟨sound, proper, _, awaits⟩ := id steady
  cases event with
  | onConnect => exact onConnect_steady steady
  | onInitResponse =>
    apply onReadDone_wp steady
    exact continueReadingDataImpl_steady (sound.of_accounts rfl)
      ⟨proper.requests, proper.connecting⟩ awaits
  | reconnect retry => exact reconnect_steady retry steady
  | startPartitionSession partitionSession =>
    exact onReadDone_wp steady (announceStream_steady _ steady)
  | stopPartitionSession partitionSession => exact announceStream_steady _ steady
  | onReadResponse bytesSize partitions => exact absurd rfl (noResponse bytesSize partitions)
  | onDataBatch partitions => exact absurd rfl (noBatch partitions)
  | onDirectReadDone partitionSession bytesSize data =>
    cases data with
    | none =>
      rw [react, wp_when]
      exact ⟨fun _ => onDirectReadDone_empty_steady partitionSession bytesSize steady,
        fun _ => steady⟩
    | some data => exact absurd rfl (noDirectRead partitionSession bytesSize data)
  | runTask info task => exact runTask_steady info task steady
  | onDataDecompressed info task => exact onDataDecompressed_steady info task steady
  | finishTask info task => exact finishTask_steady info task steady
  | retrieve info counts => exact retrieve_steady info counts steady
  | drop info counts => exact drop_steady info counts steady
  | cleanup index => exact cleanup_steady index steady
  | destroy info => exact destroy_steady info steady
  | enter index => exact enter_steady index steady
  | stopReadingData =>
    refine ⟨sound.of_accounts rfl, ⟨proper.requests, proper.connecting⟩, ?_, awaits⟩
    intro _ _ may
    simp [State.mayContinueReading] at may
  | resumeReadingData =>
    simp only [react, wp_rules]
    refine ⟨fun _ => ?_, fun _ => steady⟩
    exact continueReadingDataImpl_steady (sound.of_accounts rfl)
      ⟨proper.requests, proper.connecting⟩ awaits
  | closeQueue pushes => exact steady.of_same rfl rfl
  | close =>
    simp only [react, wp_rules]
    refine ⟨fun _ => steady, fun _ => ?_⟩
    exact abortImpl_steady (sound.of_accounts rfl) ⟨proper.requests, proper.connecting⟩
  | abort => exact abortImpl_steady sound proper

theorem react_ends {event : Event} (steady : Steady env lostBytes state) :
    (react env event).wp (Ends env lostBytes (KeepsBytes env state event) (KeepsSizes event)) state := by
  have quiet (kept : (react env event).wp (Quiet (Steady env lostBytes)) state) :
      (react env event).wp (Ends env lostBytes (KeepsBytes env state event) (KeepsSizes event)) state :=
    wp_mono kept (fun _ _ => Steady.ends) nofun
  cases event with
  | onReadResponse bytesSize partitions =>
    rw [react, wp_when]
    exact ⟨fun _ => onReadDone_wp steady.ends (onReadResponse_ends steady), fun _ => steady.ends⟩
  | onDataBatch partitions =>
    rw [react, wp_when]
    exact ⟨fun _ => onReadDone_wp steady.ends (onDataBatch_ends steady), fun _ => steady.ends⟩
  | onDirectReadDone partitionSession bytesSize data =>
    cases data with
    | none =>
      apply quiet
      apply react_steady
      all_goals simp [steady]
    | some data =>
      simp only [react, onDirectReadDone, wp_rules]
      refine ⟨fun _ => ⟨fun _ => steady.ends, fun _ => ?_⟩, fun _ => steady.ends⟩
      have single := @onReadResponse_ends env lostBytes state [data] bytesSize steady
      simpa only [Ends, KeepsBytes, KeepsSizes, forall_mem_singleton] using single
  | onConnect | onInitResponse | reconnect | startPartitionSession | stopPartitionSession | runTask
  | onDataDecompressed | finishTask | retrieve | drop | cleanup | destroy | enter | stopReadingData
  | resumeReadingData | closeQueue | close | abort =>
    apply quiet
    apply react_steady
    all_goals simp [steady]

theorem sound_start (env : Environment) : Sound env 0 0 (start env) := by
  refine ⟨by simp [start], by simp [start], rfl, fun _ => rfl, Int.le_refl 0, fun _ _ => ?_⟩
  change env.readBufferSize + 0 + 0 + 0 = env.readBufferSize
  omega

theorem steady_start (env : Environment) : Steady env 0 (start env) :=
  ⟨sound_start env, ⟨by simp [start], fun _ => ⟨rfl, rfl⟩⟩, nofun, nofun⟩

abbrev ReachesWhole (env : Environment) (state : State) : Prop :=
  Reachable (react env) (fun _ event => KeepsSizes event) (start env) state

theorem steady_of_reachesWhole (reached : ReachesWhole env state) :
    ∃ lostBytes, Steady env lostBytes state := by
  apply reached.invariant ⟨0, steady_start env⟩
  intro before event steady whole
  obtain ⟨lostBytes, steady⟩ := steady
  refine wp_mono_stops (react_ends steady) (fun _ after ends => ?_)
    (fun _ _ refused => absurd whole refused) (fun _ => id)
  obtain ⟨bytes, _, kept⟩ := ends whole
  exact ⟨bytes, kept⟩

structure State.Settled (state : State) : Prop where
  calls : state.calls = []
  tasks : ∀ info ∈ state.infos, ∀ task ∈ info.tasks, task.phase ≠ .decompressed

/-- The estimates of the tasks of an info that are started and not done. -/
def DataDecompressionInfo.startedEstimate (info : DataDecompressionInfo) : Int :=
  total (fun task => if task.phase = .started then task.estimatedDecompressedSize else 0) info.tasks

theorem DecompressionTask.share_of_told {task : DecompressionTask}
    (told : task.phase ≠ .decompressed) :
    task.compressedShare = task.compressedPart ∧
      task.decompressedShare = task.decompressedPart +
        if task.phase = .started then (task.estimatedDecompressedSize : Int) else 0 := by
  unfold compressedShare compressedPart decompressedShare decompressedPart
  cases phase : task.phase with
  | decompressed => exact absurd phase told
  | planned | started | accounted | finished | canceled => simp

theorem DecompressionTask.total_of_told
    (told : ∀ task ∈ tasks, task.phase ≠ .decompressed) :
    total compressedShare tasks = total compressedPart tasks ∧
      total decompressedShare tasks = total decompressedPart tasks +
        total (fun task => if task.phase = .started then task.estimatedDecompressedSize else 0) tasks := by
  induction tasks with
  | nil => exact ⟨rfl, rfl⟩
  | cons task rest ih =>
    rw [forall_mem_cons] at told
    obtain ⟨compressed, decompressed⟩ := ih told.2
    obtain ⟨taskCompressed, taskDecompressed⟩ := share_of_told told.1
    simp only [total_cons]
    omega

theorem Sound.settled (sound : Sound env lostBytes lostSize state) (settled : state.Settled) :
    state.compressedHeld = (state.infos.map DataDecompressionInfo.compressedDataSize).sum ∧
      state.decompressedHeld = (state.infos.map fun info =>
        info.decompressedDataSize + info.startedEstimate).sum := by
  have each : ∀ info ∈ state.infos, info.compressedShare = info.compressedDataSize ∧
      info.decompressedShare = info.decompressedDataSize + info.startedEstimate := by
    intro info member
    have infoSound := sound.infos info member
    obtain ⟨compressed, decompressed⟩ := DecompressionTask.total_of_told (settled.tasks info member)
    rw [DataDecompressionInfo.compressedShare, compressed, infoSound.compressed,
      DataDecompressionInfo.decompressedShare, decompressed, infoSound.decompressed]
    exact ⟨rfl, rfl⟩
  constructor
  · rw [State.compressedHeld, State.holds, settled.calls, map_nil, sum_nil, Int.add_zero,
      map_congr_left fun info member => (each info member).1]
  · rw [State.decompressedHeld, State.holds, settled.calls, map_nil, sum_nil, Int.add_zero,
      map_congr_left fun info member => (each info member).2]

/-- In any run without data that is refused half way, the counter of compressed data is
what infos and waiting calls stand for, and so is that of decompressed data until the
session aborts; from then on it may be larger.  In a settled session they are the sums of
the infos' own counters, with the estimates of the started tasks.  They are never
negative, and the assertion that guards them never fails. -/
theorem size_counters_are_sums (env : Environment) {state : State}
    (reached : ReachesWhole env state) :
    state.compressedDataSize = state.compressedHeld ∧
    (state.aborting = false → state.decompressedDataSize = state.decompressedHeld) ∧
    state.decompressedHeld ≤ state.decompressedDataSize ∧
    (state.Settled →
      state.compressedDataSize = (state.infos.map DataDecompressionInfo.compressedDataSize).sum ∧
      (state.aborting = false → state.decompressedDataSize = (state.infos.map fun info =>
        info.decompressedDataSize + info.startedEstimate).sum)) ∧
    0 ≤ state.compressedDataSize ∧ 0 ≤ state.decompressedDataSize ∧
    ∀ event, (react env event).step state ≠ .error .decompressedSizeCovers := by
  obtain ⟨lostBytes, steady⟩ := steady_of_reachesWhole reached
  have sound := steady.sound
  have compressed : state.compressedDataSize = state.compressedHeld := by
    have counted := sound.compressed
    omega
  obtain ⟨compressedNonneg, decompressedNonneg⟩ := sound.nonneg
  refine ⟨compressed, sound.decompressed, sound.covered, fun settled => ?_, compressedNonneg,
    decompressedNonneg, fun event failed => ?_⟩
  · obtain ⟨sumCompressed, sumDecompressed⟩ := sound.settled settled
    refine ⟨compressed.trans sumCompressed, fun running => ?_⟩
    exact (sound.decompressed running).trans sumDecompressed
  · have met : (react env event).wp (.keeping (fun _ => True) Tolerated) state :=
      wp_mono (react_ends steady) (fun _ _ _ => trivial) (fun _ _ _ => trivial)
    cases wp_step_error met failed

instance (data : PartitionData) : Decidable data.Whole :=
  decidable_of_iff ((∀ message ∈ data.messages, message.gapRefused = false) ∧
      data.cookieRefused = false)
    ⟨fun whole => ⟨whole.1, whole.2⟩, fun whole => ⟨whole.gaps, whole.cookie⟩⟩

instance (event : Event) : Decidable (KeepsSizes event) := by
  unfold KeepsSizes
  split <;> infer_instance

def smallSession : Environment := { maxMemoryUsageBytes := 200 }

def twoMessages : List Event :=
  [.onConnect, .onInitResponse, .startPartitionSession 1,
    .onReadResponse 50 [⟨1, [{ size := 20, decompressedSize := 40 }], false⟩,
      ⟨1, [{ size := 10, uncompressedSize := 30, decompressedSize := 25 }], false⟩],
    .runTask 0 0, .onDataDecompressed 0 0, .finishTask 0 0, .cleanup 0, .enter 0]

theorem size_counters_are_sums_of_two_messages :
    ∃ state, ReachesWhole smallSession state ∧ state.compressedDataSize = 10 ∧
      state.decompressedDataSize = 70 ∧ state.compressedHeld = 10 ∧ state.decompressedHeld = 70 ∧
      ∀ event, (react smallSession event).step state ≠ .error .decompressedSizeCovers := by
  obtain ⟨state, reached, running, compressed, decompressed⟩ : ∃ state, ReachesWhole smallSession state ∧
      state.aborting = false ∧ state.compressedDataSize = 10 ∧ state.decompressedDataSize = 70 :=
    exists_reachable twoMessages (by decide +kernel)
  obtain ⟨sumCompressed, sumDecompressed, _, _, _, _, guarded⟩ :=
    size_counters_are_sums smallSession reached
  exact ⟨state, reached, compressed, decompressed, sumCompressed ▸ compressed,
    sumDecompressed running ▸ decompressed, guarded⟩

def takenAfterAbort : List Event :=
  [.onConnect, .onInitResponse, .startPartitionSession 1,
    .onReadResponse 30 [⟨1, [{ size := 20, decompressedSize := 40 }], false⟩],
    .runTask 0 0, .onDataDecompressed 0 0, .finishTask 0 0, .abort, .retrieve 0 [1], .enter 0]

/-- What the user takes from an aborting session stays counted. -/
theorem aborting_session_counts_taken_message :
    ∃ state, ReachesWhole smallSession state ∧ state.Settled ∧ state.decompressedDataSize = 40 ∧
      (state.infos.map fun info => info.decompressedDataSize + info.startedEstimate).sum = 0 := by
  obtain ⟨state, reached, calls, tasks, counted⟩ : ∃ state, ReachesWhole smallSession state ∧
      state.calls = [] ∧ (∀ info ∈ state.infos, ∀ task ∈ info.tasks, task.phase ≠ .decompressed) ∧
      state.decompressedDataSize = 40 ∧
      (state.infos.map fun info => info.decompressedDataSize + info.startedEstimate).sum = 0 :=
    exists_reachable takenAfterAbort (by decide +kernel)
  exact ⟨state, reached, ⟨calls, tasks⟩, counted⟩

end YdbSdk.Topic.ReadFlow
