import YdbSdk.Topic.ReadFlow.Budget

namespace YdbSdk.Topic.ReadFlow

open YdbSdk.Control YdbSdk.Data Code List

/-! # Infos, their tasks and their calls keep the balance -/

variable {env : Environment} {lostBytes lostSize : Int} {state : State} {index info : Nat}
  {task : DecompressionTask}

theorem State.filled {changed : DataDecompressionInfo}
    (found : (state.info info).tasks[index]? = some task) (empty : state.info info = {}) :
    changed = {} := by
  simp [empty] at found

section

variable (sound : Sound env lostBytes lostSize state)
include sound

/-- The info learns that a task has decompressed its messages.  The server bytes go from
the info to the task. -/
theorem Sound.runTask
    (found : (state.info info).tasks[index]? = some task) (started : task.phase = .started) :
    Sound env lostBytes lostSize (state.changeInfo info (.onDataDecompressed index task)) := by
  refine sound.shift (fun _ => .modify found fun sound => sound.of_phase rfl (by simp [started]))
    (State.filled found) rfl rfl (append_nil _).symm rfl (by simp) ?_ ?_ ?_ ?_ ?_
  all_goals simp [Account.weight_eq, DataDecompressionInfo.onDataDecompressed, State.changeInfo, started]
  all_goals omega

omit sound in
theorem runTask_steady (info index : Nat) (steady : Steady env lostBytes state) :
    (runTask info index).wp (Quiet (Steady env lostBytes)) state := by
  simp only [runTask, wp_rules]
  cases found : state.task? info index with
  | none => exact steady
  | some task =>
    simp only [wp_rules, beq_iff_eq]
    exact ⟨fun started => steady.of_reading (steady.sound.runTask found started) rfl, fun _ => steady⟩

/-- The session learns that a task has decompressed its messages.  The server bytes it
brings back are not yet in the budget. -/
theorem Sound.onDataDecompressed (found : (state.info info).tasks[index]? = some task)
    (decompressed : task.phase = .decompressed) (ratio : Rat) :
    Sound env (lostBytes + task.serverBytesSize) lostSize
      { state.changeInfo info (fun info =>
          info.changeTask index fun task => { task with phase := .accounted }) with
        compressedDataSize := state.compressedDataSize - task.sourceDataSize
        decompressedDataSize := state.decompressedDataSize +
          (task.held.sum - task.estimatedDecompressedSize)
        averageCompressionRatio := ratio } := by
  refine sound.shift (fun _ => .modify found fun sound => sound.of_phase rfl (by simp [decompressed]))
    (State.filled found) rfl rfl (append_nil _).symm rfl (by simp) ?_ ?_ ?_ ?_ ?_
  all_goals simp [Account.weight_eq, DataDecompressionInfo.changeTask, State.changeInfo, decompressed]
  all_goals omega

omit sound in
theorem onDataDecompressed_steady (info index : Nat) (steady : Steady env lostBytes state) :
    (onDataDecompressed env info index).wp (Quiet (Steady env lostBytes)) state := by
  simp only [onDataDecompressed, wp_rules]
  cases found : state.task? info index with
  | none => exact steady
  | some task =>
    rw [wp_when]
    refine ⟨fun decompressed => ?_, fun _ => steady⟩
    have counted := steady.sound.onDataDecompressed found (beq_iff_eq.mp decompressed)
      (newAverage task state.averageCompressionRatio)
    have proper := steady.prompt.proper
    simp only [wp_rules]
    refine ⟨fun aborting => ?_, fun _ => ?_⟩
    · exact .of_aborting counted ⟨proper.requests, proper.connecting⟩ aborting
    · have rest := returnAndResume_steady counted ⟨proper.requests, proper.connecting⟩
        steady.prompt.awaits
      simpa only [wp_bind] using rest

theorem Sound.announceTask
    (found : (state.info info).tasks[index]? = some task) (accounted : task.phase = .accounted) :
    Sound env lostBytes lostSize (state.changeInfo info fun info =>
      info.changeTask index fun task => { task with phase := .finished, state := .ready }) := by
  refine sound.shift (fun _ => .modify found fun _ => ⟨fun _ => rfl⟩) (State.filled found) rfl rfl
    (append_nil _).symm rfl (by simp) ?_ ?_ ?_ ?_ ?_
  all_goals simp [Account.weight_eq, DataDecompressionInfo.changeTask, State.changeInfo, accounted]

omit sound in
theorem Call.retrieved_sound (info size : Nat) :
    ∀ call ∈ [Call.onUserRetrievedEvent info size], call.Sound :=
  forall_mem_singleton.mpr ⟨Int.le_refl 0, Int.natCast_nonneg _⟩

theorem Sound.giveUpTask
    (found : (state.info info).tasks[index]? = some task) (accounted : task.phase = .accounted) :
    Sound env lostBytes lostSize
      { state.changeInfo info (fun info =>
          { info.changeTask index (fun task =>
              { task with phase := .finished, state := .abandoned, held := [] }) with
            decompressedDataSize := info.decompressedDataSize - task.held.sum }) with
        calls := state.calls ++ [.onUserRetrievedEvent info task.held.sum] } := by
  refine sound.shift (fun _ => .modify found fun _ => ⟨fun _ => rfl⟩) (State.filled found) rfl rfl rfl
    rfl (Call.retrieved_sound _ _) ?_ ?_ ?_ ?_ ?_
  all_goals simp [Account.weight_eq, DataDecompressionInfo.changeTask, State.changeInfo,
    Call.compressedShare, Call.decompressedShare, Call.serverShare, accounted]
  all_goals omega

omit sound in
theorem finishTask_steady (info index : Nat) (steady : Steady env lostBytes state) :
    (finishTask info index).wp (Quiet (Steady env lostBytes)) state := by
  simp only [finishTask, wp_rules]
  cases found : state.task? info index with
  | none => exact steady
  | some task =>
    rw [wp_when]
    refine ⟨fun accounted => ?_, fun _ => steady⟩
    have phase := beq_iff_eq.mp accounted
    have taskSound := (state.infoSound steady.sound.infos info).tasks task (mem_of_getElem? found)
    cases taskState : task.state with
    | inProcess => exact steady.of_reading (steady.sound.announceTask found phase) rfl
    | cleanup => exact steady.of_reading (steady.sound.giveUpTask found phase) rfl
    | ready =>
      rw [taskSound.finished (.inl taskState)] at phase
      contradiction
    | abandoned =>
      rw [taskSound.finished (.inr taskState)] at phase
      contradiction

theorem Sound.release {info size : Nat}
    {tasks : List DecompressionTask} (blank : state.info info = {} → tasks = [] ∧ size = 0)
    (shifts : (∀ task ∈ (state.info info).tasks, task.Sound) →
      Shifts (state.info info).tasks tasks (moved 0 (-size) (-size))) :
    Sound env lostBytes lostSize
      { state.changeInfo info (fun info =>
          { info with tasks, decompressedDataSize := info.decompressedDataSize - size }) with
        calls := state.calls ++ [.onUserRetrievedEvent info size] } := by
  refine sound.shift shifts ?_ rfl rfl rfl rfl (Call.retrieved_sound _ _) ?_ ?_ ?_ ?_ ?_
  · intro empty
    obtain ⟨rfl, rfl⟩ := blank empty
    rfl
  all_goals simp [moved, State.changeInfo, Call.compressedShare, Call.decompressedShare,
    Call.serverShare]
  all_goals omega

omit sound in
theorem retrieve_steady (info : Nat) (counts : List Nat) (steady : Steady env lostBytes state) :
    (retrieve info counts).wp (Quiet (Steady env lostBytes)) state := by
  refine steady.of_reading (steady.sound.release ?_ (DecompressionTask.takeReady_shifts counts)) rfl
  intro empty
  cases counts <;> simp [empty, takeReady]

omit sound in
theorem drop_steady (info : Nat) (counts : List Nat) (steady : Steady env lostBytes state) :
    (drop info counts).wp (Quiet (Steady env lostBytes)) state := by
  have blank : dropMessages counts [] = ([], 0, false) := by
    match counts with
    | [] => rfl
    | 0 :: _ => rfl
    | (_ + 1) :: _ => rfl
  have released := @Sound.release env lostBytes 0 state steady.sound info
    (dropMessages counts (state.info info).tasks).2.1 (dropMessages counts (state.info info).tasks).1
    (fun empty => by simp [empty, blank]) (DecompressionTask.dropMessages_shifts counts)
  simp only [drop, wp_rules]
  exact ⟨fun _ => steady.of_reading (released.of_accounts rfl) rfl,
    fun _ => steady.of_reading released rfl⟩

theorem Sound.cleanup (info : Nat) (cleanups : List Nat) : Sound env lostBytes lostSize
      { state.changeInfo info (fun info =>
          { info with
            tasks := info.tasks.map cancelPlanned
            compressedDataSize := info.compressedDataSize - plannedSize info.tasks
            serverBytesSize := 0 }) with
        cleanups
        calls := state.calls ++ [.onDecompressionTaskCanceled info
          (plannedSize (state.info info).tasks) (state.info info).serverBytesSize] } := by
  have callSound : (Call.onDecompressionTaskCanceled info (plannedSize (state.info info).tasks)
      (state.info info).serverBytesSize).Sound := ⟨Int.natCast_nonneg _, Int.le_refl 0⟩
  refine sound.shift (fun _ => DecompressionTask.cancelPlanned_shifts _) (fun _ => rfl) rfl rfl rfl rfl
    (forall_mem_singleton.mpr callSound) ?_ ?_ ?_ ?_ ?_
  all_goals simp [moved, State.changeInfo, Call.compressedShare, Call.decompressedShare,
    Call.serverShare]
  all_goals omega

omit sound in
theorem cleanup_steady (index : Nat) (steady : Steady env lostBytes state) :
    (cleanup index).wp (Quiet (Steady env lostBytes)) state := by
  simp only [ReadFlow.cleanup, wp_rules]
  cases state.cleanups[index]? with
  | none => exact steady
  | some info =>
    exact steady.of_reading (steady.sound.cleanup info (state.cleanups.eraseIdx index)) rfl

omit sound in
theorem DecompressionTask.total_of_done
    (done : tasks.all (fun task => task.phase == .finished || task.phase == .canceled) = true) :
    total compressedShare tasks = total compressedPart tasks ∧
      total decompressedShare tasks = total decompressedPart tasks ∧ total serverShare tasks = 0 := by
  induction tasks with
  | nil => exact ⟨rfl, rfl, rfl⟩
  | cons task rest ih =>
    rw [all_cons, Bool.and_eq_true, Bool.or_eq_true, beq_iff_eq, beq_iff_eq] at done
    obtain ⟨compressed, decompressed, server⟩ := ih done.2
    simp only [total_cons, compressed, decompressed, server, compressedShare, compressedPart,
      decompressedShare, decompressedPart, serverShare]
    rcases done.1 with finished | canceled
    · simp [finished]
    · simp [canceled]

theorem Sound.destroy (unreferenced : state.unreferenced index = true) :
    Sound env lostBytes lostSize
      { state.changeInfo index (fun _ => {}) with
        calls := state.calls ++ [.onDecompressionInfoDestroy (state.info index).compressedDataSize
          (state.info index).decompressedDataSize (state.info index).serverBytesSize] } := by
  have infoSound := state.infoSound sound.infos index
  simp only [State.unreferenced, Bool.and_eq_true] at unreferenced
  obtain ⟨compressed, decompressed, server⟩ := DecompressionTask.total_of_done unreferenced.2
  have compressedCount := infoSound.compressed
  have decompressedCount := infoSound.decompressed
  have compressedNonneg := (state.info index).compressedShare_nonneg
  have decompressedNonneg := (state.info index).decompressedShare_nonneg
  unfold DataDecompressionInfo.compressedShare at compressedNonneg
  unfold DataDecompressionInfo.decompressedShare at decompressedNonneg
  have callSound : (Call.onDecompressionInfoDestroy (state.info index).compressedDataSize
      (state.info index).decompressedDataSize (state.info index).serverBytesSize).Sound := by
    constructor
    · change 0 ≤ (state.info index).compressedDataSize
      omega
    · change 0 ≤ (state.info index).decompressedDataSize
      omega
  refine sound.exchange index _ [_] rfl rfl rfl (fun _ => rfl) (fun _ => .empty)
    (forall_mem_singleton.mpr callSound) ?_ ?_ ?_
  all_goals simp [DataDecompressionInfo.compressedShare, DataDecompressionInfo.decompressedShare,
    DataDecompressionInfo.serverShare, Call.compressedShare, Call.decompressedShare, Call.serverShare,
    State.changeInfo]
  all_goals omega

end

theorem destroy_steady (index : Nat) (steady : Steady env lostBytes state) :
    (destroy index).wp (Quiet (Steady env lostBytes)) state := by
  simp only [ReadFlow.destroy, wp_rules]
  exact ⟨fun unreferenced => steady.of_reading (steady.sound.destroy unreferenced) rfl,
    fun _ => steady⟩

theorem enter_steady (index : Nat) (steady : Steady env lostBytes state) :
    (enter env index).wp (Quiet (Steady env lostBytes)) state := by
  have proper := steady.prompt.proper
  simp only [enter, wp_rules]
  cases found : state.calls[index]? with
  | none => exact steady
  | some pending =>
    obtain ⟨taken, enough, _⟩ := steady.sound.take found
    cases pending with
    | onUserRetrievedEvent info decompressedSize =>
      simp only [Call.serverShare, Call.decompressedShare, Int.add_zero]
        at taken
      simp only [onUserRetrievedEvent, wp_rules]
      refine ⟨fun aborting => ?_, fun _ => ⟨fun _ => ?_, fun short => ?_⟩⟩
      · exact .of_aborting (steady.sound.ignore found aborting)
          ⟨proper.requests, proper.connecting⟩ aborting
      · have rest := resume_steady taken ⟨proper.requests, proper.connecting⟩ steady.prompt.awaits
        simpa only [wp_bind] using rest
      · have bound : decompressedSize ≤ state.decompressedDataSize := enough
        simp [bound] at short
    | onDecompressionTaskCanceled info sourceSize serverBytesSize =>
      simp only [Call.serverShare, Call.compressedShare, Call.decompressedShare, Int.sub_zero]
        at taken
      simp only [onDecompressionTaskCanceled, wp_rules]
      refine ⟨fun aborting => ?_, fun _ => ?_⟩
      · exact .of_aborting taken.subtract ⟨proper.requests, proper.connecting⟩ aborting
      · have rest := returnAndResume_steady taken.subtract ⟨proper.requests, proper.connecting⟩
          steady.prompt.awaits
        simpa only [wp_bind] using rest
    | onDecompressionInfoDestroy compressedSize decompressedSize serverBytesSize =>
      have rest := returnAndResume_steady taken.subtract ⟨proper.requests, proper.connecting⟩
        steady.prompt.awaits
      exact rest

end YdbSdk.Topic.ReadFlow
