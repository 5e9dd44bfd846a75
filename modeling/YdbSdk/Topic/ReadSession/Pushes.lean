import YdbSdk.Topic.ReadSession.Signals

namespace YdbSdk.Topic.ReadSession

open YdbSdk.Control YdbSdk.Data Code List

/-! # Events are pushed

An event joins the end of its queue, or goes to its handler at once.  The end of a
partition session cuts its queue before the first message that is not decompressed.
-/

variable {env : Environment} {state : State} {stream task : Nat} {spared : Nat → Prop}

theorem PartitionStream.Sound.insert {stream : PartitionStream} (sound : stream.Sound env)
    (task : ∀ task decompressed, event = .data task decompressed → task < stream.tasks.length ∧
      stream.taskState task = .inProcess ∧ env.Uniform decompressed)
    (way : env.eventHandlers.hasDataEventCallback = false → env.takes .handler event = false) :
    PartitionStream.Sound env { stream with notReady := stream.notReady ++ [event] } := by
  refine ⟨sound.readyTasks, fun other decompressed member => ?_,
    fun other decompressed member => ?_, fun noCallback other member => ?_⟩
  · simp only [mem_append, mem_singleton] at member
    rcases member with earlier | now
    · exact sound.heldTasks other decompressed earlier
    · obtain ⟨bound, running, _⟩ := task other decompressed now.symm
      exact ⟨bound, .inl running⟩
  · simp only [mem_append, mem_singleton] at member
    rcases member with earlier | earlier | now
    · exact sound.uniform other decompressed (by simp [earlier])
    · exact sound.uniform other decompressed (by simp [earlier])
    · exact (task other decompressed now.symm).2.2
  · simp only [mem_append, mem_singleton] at member
    rcases member with earlier | rfl
    · exact sound.bypassed noCallback other earlier
    · exact way noCallback

theorem Sound.insertEvent {after : State} (sound : Sound env spared state)
    (unclosed : state.closed = false) (task : ∀ task decompressed, event = .data task decompressed →
      task < (state.streams stream).tasks.length ∧
        (state.streams stream).taskState task = .inProcess ∧ env.Uniform decompressed)
    (way : env.eventHandlers.hasDataEventCallback = false → env.takes .handler event = false)
    (others : ∀ other, other ≠ stream → sparedAfter other → spared other)
    (whole : sparedAfter stream → after.Intact stream → spared stream)
    (result : after = (state.notePushed stream event).changeStream stream
      fun queue => { queue with notReady := queue.notReady ++ [event] }) :
    Sound env sparedAfter after := by
  have here : after.streams stream = { state.streams stream with
      notReady := (state.streams stream).notReady ++ [event] } := by
    rw [result, State.changeStream_self]
    rfl
  have elsewhere : ∀ other, other ≠ stream → after.streams other = state.streams other := by
    intro other differ
    rw [result, State.changeStream_other _ _ differ]
    rfl
  have pushed : after.pushed stream = state.pushed stream ++ [event] := by
    rw [result]
    simp [State.changeStream, State.notePushed]
  have touches : Touches stream state after := by
    refine ⟨elsewhere, fun other differ => ?_, fun _ _ _ => by rw [result]; rfl,
      by rw [result]; rfl, by rw [result]; rfl, by rw [result]; rfl⟩
    rw [result]
    simp [State.changeStream, State.notePushed, differ]
  refine sound.touch touches others ?_ (fun stillOpen other => ?_) ?_ ?_
    (fun channel => ?_) (by rw [result]; rfl)
  · rw [here]
    exact (sound.streams stream).insert task way
  · have events : after.events = state.events := by rw [result]; rfl
    rw [events, sound.announced unclosed other]
    by_cases same : other = stream
    · subst same
      rw [here]
    · rw [elsewhere other same]
  · rw [result]
    exact sound.counted
  · rw [result]
    exact sound.emptied
  · refine ((sound.delivers channel stream).mono fun intact => ?_).push event [] unclosed
      (by simp [result]) pushed touches.closed ?_
    · refine ⟨whole intact.1 intact.2, fun earlier member => intact.2 earlier ?_⟩
      rw [pushed]
      exact mem_append_left _ member
    · cases channel <;> simp [State.staged, here]

theorem Sound.bypass {after : State}
    (sound : Sound env spared state) (unclosed : state.closed = false)
    (noCallback : env.eventHandlers.hasDataEventCallback = false)
    (visited : env.eventHandlers.visits event = true)
    (others : ∀ other, other ≠ stream → sparedAfter other → spared other)
    (whole : sparedAfter stream → after.Intact stream → spared stream)
    (result : after = (state.notePushed stream (.service event)).hand .handler
      (.service stream event)) : Sound env sparedAfter after := by
  have streams : after.streams = state.streams := by rw [result]; rfl
  have pushed : after.pushed stream = state.pushed stream ++ [.service event] := by
    rw [result]
    simp [State.hand, State.notePushed]
  have touches : Touches stream state after := by
    refine ⟨fun other _ => by rw [streams], fun other differ => ?_, fun channel other differ => ?_,
      by rw [result]; rfl, by rw [result]; rfl, by rw [result]; rfl⟩
    · rw [result]
      simp [State.hand, State.notePushed, differ]
    · simp [result, UserEvent.itemsOf, differ.symm]
  refine sound.touch touches others (streams ▸ sound.streams stream) (fun stillOpen other => ?_)
    (by rw [result]; exact sound.counted) (by rw [result]; exact sound.emptied) (fun channel => ?_)
    (by rw [result, State.returned_hand_handler]; rfl)
  · have events : after.events = state.events := by rw [result]; rfl
    rw [events, streams, sound.announced unclosed other]
  · have mono : state.Delivers env (sparedAfter stream ∧ after.Intact stream) channel stream :=
      (sound.delivers channel stream).mono fun intact =>
        ⟨whole intact.1 intact.2, fun earlier member => intact.2 earlier (by
          rw [pushed]
          exact mem_append_left _ member)⟩
    cases channel with
    | returned =>
      refine mono.push (.service event) [] unclosed ?_ pushed touches.closed ?_
      · simp [result]
      · simp [State.staged, streams, Environment.takes, visited]
    | handler =>
      -- No event that a handler takes waits in the queue.
      have empty : (state.streams stream).notReady.filter (env.takes .handler) = [] := by
        rw [filter_eq_nil_iff]
        intro other member
        simp [(sound.streams stream).bypassed noCallback other member]
      refine mono.push (.service event) [.service event] unclosed ?_ pushed touches.closed ?_
      · simp [result, UserEvent.itemsOf, RawPartitionStreamEvent.items]
      · simp [State.staged, streams, empty, Environment.takes, visited]

theorem PartitionStream.setAbandoned_spec (task : Nat) (tasks : List DecompressionTaskState) :
    (setAbandoned task tasks).2.length = tasks.length ∧
      (∀ other, tasks.getD other .inProcess = .ready →
        (setAbandoned task tasks).2.getD other .inProcess = .ready) ∧
      ((setAbandoned task tasks).1 = false →
        (setAbandoned task tasks).2 = tasks ∧ tasks.getD task .inProcess = .ready) := by
  unfold setAbandoned
  split
  · rename_i running
    refine ⟨by simp, fun other done => ?_, fun impossible => by simp at impossible⟩
    have differ : task ≠ other := by
      rintro rfl
      rw [running] at done
      contradiction
    simpa [differ] using done
  · rename_i done
    exact ⟨rfl, fun _ => id, fun _ => ⟨rfl, done⟩⟩
  · exact ⟨rfl, fun _ => id, fun impossible => by simp at impossible⟩

theorem PartitionStream.readyPrefix_spec (hasNonReadyEvents : Bool)
    (tasks : List DecompressionTaskState) (queue : List RawPartitionStreamEvent) :
    (readyPrefix hasNonReadyEvents tasks queue).1 <+: queue ∧
      (hasNonReadyEvents = true → (readyPrefix hasNonReadyEvents tasks queue).1 = []) ∧
      (readyPrefix hasNonReadyEvents tasks queue).2.length = tasks.length ∧
      (∀ other, tasks.getD other .inProcess = .ready →
        (readyPrefix hasNonReadyEvents tasks queue).2.getD other .inProcess = .ready) ∧
      (∀ task decompressed, .data task decompressed ∈
          (readyPrefix hasNonReadyEvents tasks queue).1 →
        tasks.getD task .inProcess = .ready) := by
  induction queue generalizing hasNonReadyEvents tasks with
  | nil => simp [readyPrefix]
  | cons event rest ih =>
    cases event with
    | service event =>
      obtain ⟨isPrefix, none, length, stays, done⟩ := ih hasNonReadyEvents tasks
      cases hasNonReadyEvents with
      | true => simpa [readyPrefix, none rfl] using ⟨length, stays⟩
      | false =>
        refine ⟨by simpa [readyPrefix] using isPrefix, by simp, length, stays, ?_⟩
        simpa [readyPrefix] using done
    | data task decompressed =>
      obtain ⟨sameLength, staysReady, wasReady⟩ := setAbandoned_spec task tasks
      rw [readyPrefix]
      split
      · rename_i cancelled outcome
        rw [outcome] at sameLength staysReady
        obtain ⟨_, none, length, stays, _⟩ := ih true cancelled
        rw [none rfl]
        exact ⟨List.nil_prefix, fun _ => rfl, length.trans sameLength,
          fun other ready => stays other (staysReady other ready), by simp⟩
      · rename_i same outcome
        rw [outcome] at wasReady
        obtain ⟨rfl, wasReady⟩ := wasReady rfl
        obtain ⟨isPrefix, none, length, stays, done⟩ := ih hasNonReadyEvents same
        cases hasNonReadyEvents with
        | true => simpa [none rfl] using ⟨length, stays⟩
        | false =>
          refine ⟨by simpa using isPrefix, by simp, length, stays, fun other data member => ?_⟩
          simp only [Bool.false_eq_true, if_false, mem_cons] at member
          rcases member with ⟨rfl, _⟩ | later
          · exact wasReady
          · exact done other data later

theorem PartitionStream.Sound.deleteNotReadyTail {stream : PartitionStream}
    (sound : stream.Sound env) : stream.deleteNotReadyTail.Sound env := by
  obtain ⟨isPrefix, _, length, stays, done⟩ := readyPrefix_spec false stream.tasks stream.notReady
  refine ⟨fun task decompressed member => stays task (sound.readyTasks task decompressed member),
    fun task decompressed member => ?_, fun task decompressed member => ?_,
    fun noCallback event member => sound.bypassed noCallback event (isPrefix.subset member)⟩
  · refine ⟨?_, .inr (stays task (done task decompressed member))⟩
    have bound := (sound.heldTasks task decompressed (isPrefix.subset member)).1
    exact length.symm ▸ bound
  · refine sound.uniform task decompressed ?_
    rcases mem_append.mp member with inReady | held
    · exact mem_append_left _ inReady
    · exact mem_append_right _ (isPrefix.subset held)

theorem Sound.deleteNotReadyTail (sound : Sound env spared state) (stream : Nat) :
    Sound env (fun other => spared other ∧ other ≠ stream)
      (state.changeStream stream .deleteNotReadyTail) := by
  have isPrefix := (PartitionStream.readyPrefix_spec false (state.streams stream).tasks
    (state.streams stream).notReady).1
  have touches : Touches stream state
      (state.changeStream stream .deleteNotReadyTail) :=
    ⟨fun _ differ => state.changeStream_other _ differ, fun _ _ => rfl, fun _ _ _ => rfl, rfl, rfl,
      rfl⟩
  refine sound.touch touches (fun _ _ both => both.1) ?_ (fun unclosed other => ?_) sound.counted
    sound.emptied (fun channel => ?_) rfl
  · rw [State.changeStream_self]
    exact (sound.streams stream).deleteNotReadyTail
  · refine (sound.announced unclosed other).trans ?_
    by_cases same : other = stream
    · subst same
      rw [State.changeStream_self]
      rfl
    · rw [State.changeStream_other _ _ same]
  · obtain ⟨given, same, faithful⟩ := sound.delivers channel stream
    have cut : Relay.Faithful False (state.closed = false)
        ((state.changeStream stream .deleteNotReadyTail).relay env channel stream
          given) := by
      refine faithful.cut (.append (.refl _) (.append ?_ ?_)) rfl
      · cases channel <;> simp [State.relay, State.staged, PartitionStream.deleteNotReadyTail]
      · simp only [State.relay, State.changeStream_self]
        exact isPrefix.sublist.filter _
    exact ⟨given, same, cut.mono (fun whole => whole.1.2 rfl) id⟩

theorem endOfSession_spec (sound : Sound env (fun _ => True) state) (stream : Nat)
    (event : ServiceEvent) :
    (Code.when (event.kind == .partitionSessionClosed) (do
        updateStream stream .deleteNotReadyTail
        signalReadyEvents env stream)).wp
      ⟨fun _ after => Sound env
          (fun other => other = stream → event.kind ≠ .partitionSessionClosed) after ∧
          after.closed = state.closed,
        fun _ _ => False, env.Endless⟩ state := by
  simp only [wp_rules]
  constructor
  · intro ends
    have ends : event.kind = .partitionSessionClosed := by simpa using ends
    have same : (fun other => other = stream → event.kind ≠ .partitionSessionClosed) =
        fun other => True ∧ other ≠ stream := by
      simp [ends]
    rw [same]
    exact signalReadyEvents_spec (sound.deleteNotReadyTail stream) stream
  · intro goesOn
    have goesOn : event.kind ≠ .partitionSessionClosed := by simpa using goesOn
    have same : (fun other => other = stream → event.kind ≠ .partitionSessionClosed) =
        fun _ => True := by
      simp [goesOn]
    rw [same]
    exact ⟨sound, trivial⟩

theorem pushEvent_spec (sound : Sound env (fun _ => True) state) (stream : Nat)
    (event : ServiceEvent) :
    (pushEvent env stream event).wp
      ⟨fun _ after => Sound env (fun _ => True) after, fun _ _ => False, env.Endless⟩ state := by
  simp only [pushEvent, wp_bind, wp_ite]
  refine ⟨fun _ => sound, fun notClosed => ?_⟩
  have unclosed : state.closed = false := by simpa using notClosed
  refine wp_then (endOfSession_spec sound stream event) ?_
  rintro _ middle ⟨middleSound, middleClosed⟩
  have middleOpen : middle.closed = false := middleClosed.trans unclosed
  -- Once the event itself is recorded, it says why the queue was cut.
  have others : ∀ other, other ≠ stream → True →
      (other = stream → event.kind ≠ .partitionSessionClosed) :=
    fun other differ _ same => absurd same differ
  have whole : ∀ after : State, after.pushed stream = middle.pushed stream ++ [.service event] →
      True → after.Intact stream → (stream = stream → event.kind ≠ .partitionSessionClosed) :=
    fun after pushed _ intact _ => intact event (by rw [pushed]; simp)
  simp only [tryApplyCallbackToEventImpl, wp_ite, wp_bind, wp_pure]
  have inserted : (env.eventHandlers.hasDataEventCallback = false →
      env.takes .handler (.service event) = false) →
      (signalReadyEvents env stream).wp
        ⟨fun _ after => Sound env (fun _ => True) after, fun _ _ => False, env.Endless⟩
        ((middle.notePushed stream (.service event)).changeStream stream
          fun queue => { queue with notReady := queue.notReady ++ [.service event] }) := by
    intro way
    refine wp_then (signalReadyEvents_spec (middleSound.insertEvent middleOpen
      (by simp) way others (whole _ ?_) rfl) stream) (fun _ _ done => done.1)
    simp [State.changeStream, State.notePushed]
  refine ⟨fun noCallback => ⟨fun visited => ⟨fun _ => ?_, fun impossible => absurd trivial impossible⟩,
    fun unvisited => ⟨fun impossible => by simp at impossible, fun _ => inserted fun _ => ?_⟩⟩,
    fun callback => ⟨fun impossible => by simp at impossible, fun _ => inserted fun without => ?_⟩⟩
  · refine middleSound.bypass middleOpen (by simpa using noCallback) visited others (whole _ ?_) rfl
    simp [State.hand, State.notePushed]
  · simpa [Environment.takes] using unvisited
  · simp [without] at callback

theorem Sound.changeTasks {tasks : List DecompressionTaskState} (sound : Sound env spared state)
    (streamSound : PartitionStream.Sound env { state.streams stream with tasks }) :
    Sound env spared (state.changeStream stream fun queue => { queue with tasks }) := by
  have touches : Touches stream state
      (state.changeStream stream fun queue => { queue with tasks }) :=
    ⟨fun _ differ => state.changeStream_other _ differ, fun _ _ => rfl, fun _ _ _ => rfl, rfl, rfl,
      rfl⟩
  refine sound.touch touches (fun _ _ => id) ?_ (fun unclosed other => ?_) sound.counted
    sound.emptied (fun channel => ?_) rfl
  · rwa [State.changeStream_self]
  · refine (sound.announced unclosed other).trans ?_
    by_cases same : other = stream
    · subst same
      rw [State.changeStream_self]
    · rw [State.changeStream_other _ _ same]
  · refine (sound.delivers channel stream).move [] (by simp) rfl rfl ?_
    cases channel <;> simp [State.staged]

theorem PartitionStream.Sound.withTasks {stream : PartitionStream}
    {tasks : List DecompressionTaskState} (sound : stream.Sound env)
    (same : ∀ task, tasks.getD task .inProcess = stream.tasks.getD task .inProcess)
    (bound : ∀ task decompressed, .data task decompressed ∈ stream.notReady →
      task < tasks.length) : PartitionStream.Sound env { stream with tasks } := by
  refine ⟨fun task decompressed member => ?_, fun task decompressed member => ?_, sound.uniform,
    sound.bypassed⟩
  · exact (same task).trans (sound.readyTasks task decompressed member)
  · refine ⟨bound task decompressed member, ?_⟩
    simp only [taskState, same]
    exact (sound.heldTasks task decompressed member).2

theorem getD_append_inProcess (tasks : List DecompressionTaskState) (task : Nat) :
    (tasks ++ [DecompressionTaskState.inProcess]).getD task .inProcess =
      tasks.getD task .inProcess := by
  by_cases inside : task < tasks.length
  · simp [List.getElem?_append_left inside]
  · have beyond : tasks.length ≤ task := Nat.le_of_not_lt inside
    simp only [getD_eq_getElem?_getD, List.getElem?_append_right beyond,
      List.getElem?_eq_none beyond]
    cases task - tasks.length <;> simp

theorem foldl_addDecompressedMessage_compressed (committedOffset : Nat) (data : MessageData)
    (records : List DecompressedMessage) (result : DecompressedData)
    (none : result.compressedMessages = []) :
    (records.foldl (addDecompressedMessage committedOffset data) result).compressedMessages = [] := by
  induction records generalizing result with
  | nil => exact none
  | cons record rest ih =>
    refine ih _ ?_
    unfold addDecompressedMessage
    dsimp only
    split <;> exact none

theorem Environment.uniform_build (env : Environment) (committedOffset : Nat) (data : MessageData) :
    env.Uniform (buildDecompressedData env.decompress committedOffset data) := by
  unfold Uniform buildDecompressedData
  split
  · exact foldl_addDecompressedMessage_compressed _ _ _ _ rfl
  · rfl

theorem pushDataEvent_spec {decompressed : DecompressedData} (sound : Sound env spared state)
    (bound : task < (state.streams stream).tasks.length)
    (running : (state.streams stream).taskState task = .inProcess)
    (uniform : env.Uniform decompressed) :
    (pushDataEvent stream (.data task decompressed)).wp
      ⟨fun _ after => Sound env spared after ∧
          (after.streams stream).tasks = (state.streams stream).tasks,
        fun _ _ => False, fun _ => False⟩ state := by
  simp only [pushDataEvent, wp_rules]
  refine ⟨fun _ => ⟨sound, trivial⟩, fun notClosed => ⟨?_, ?_⟩⟩
  · refine sound.insertEvent (by simpa using notClosed) (fun other data now => ?_)
      (fun noCallback => ?_) (fun _ _ => id) (fun spares _ => spares) rfl
    · obtain ⟨rfl, rfl⟩ := (RawPartitionStreamEvent.data.injEq ..).mp now
      exact ⟨bound, running, uniform⟩
    · exact noCallback
  · rw [State.changeStream_self]
    rfl

/-- A task is being filled: it is the last one, and if it is still empty no message
refers to it. -/
def PartitionStream.Planning (stream : PartitionStream) (added : Bool) : Prop :=
  ∃ earlier, stream.tasks = earlier ++ [.inProcess] ∧
    (added = false → ∀ task decompressed, .data task decompressed ∈ stream.notReady →
      task < earlier.length)

theorem Sound.addTask (sound : Sound env spared state) (stream : Nat) :
    Sound env spared (state.changeStream stream fun queue =>
        { queue with tasks := queue.tasks ++ [.inProcess] }) ∧
      ((state.changeStream stream fun queue =>
        { queue with tasks := queue.tasks ++ [.inProcess] }).streams stream).Planning false := by
  have held := (sound.streams stream).heldTasks
  constructor
  · refine sound.changeTasks ((sound.streams stream).withTasks (getD_append_inProcess _) ?_)
    intro task decompressed member
    have := (held task decompressed member).1
    simp only [length_append]
    omega
  · rw [State.changeStream_self]
    exact ⟨_, rfl, fun _ task decompressed member => (held task decompressed member).1⟩

theorem planMessages_spec (stream committedOffset : Nat) {addedDataSize : Nat} {added : Bool}
    {messages : List MessageData} (sound : Sound env spared state)
    (planning : (state.streams stream).Planning added) :
    (planMessages env stream committedOffset addedDataSize added messages).wp
      ⟨fun _ after => Sound env spared after, fun _ _ => False, fun _ => False⟩ state := by
  induction messages generalizing state addedDataSize added with
  | nil =>
    obtain ⟨earlier, tasks, unused⟩ := planning
    simp only [planMessages, wp_rules]
    refine ⟨fun empty => ?_, fun _ => sound⟩
    refine sound.changeTasks ((sound.streams stream).withTasks (fun task => ?_) ?_)
    · rw [tasks, dropLast_concat, getD_append_inProcess]
    · rw [tasks, dropLast_concat]
      exact unused (by simpa using empty)
  | cons data rest ih =>
    obtain ⟨earlier, tasks, _⟩ := planning
    simp only [planMessages, wp_rules]
    refine wp_then (pushDataEvent_spec sound (by simp [tasks])
      (by simp [PartitionStream.taskState, tasks]) (env.uniform_build committedOffset data)) ?_
    rintro pushed after ⟨afterSound, afterTasks⟩
    refine ⟨fun _ => afterSound, fun _ => ⟨fun _ => ?_, fun _ => ?_⟩⟩
    · exact ih (afterSound.addTask stream).1 (afterSound.addTask stream).2
    · exact ih afterSound ⟨earlier, afterTasks.trans tasks, by simp⟩

theorem planDecompressionTasks_spec (stream committedOffset : Nat) (messages : List MessageData)
    (sound : Sound env spared state) :
    (planDecompressionTasks env stream committedOffset messages).wp
      ⟨fun _ after => Sound env spared after, fun _ _ => False, fun _ => False⟩ state := by
  exact planMessages_spec stream committedOffset (sound.addTask stream).1 (sound.addTask stream).2

theorem PartitionStream.taskState_set (stream : PartitionStream)
    (bound : task < stream.tasks.length) (result : DecompressionTaskState) (other : Nat) :
    PartitionStream.taskState { stream with tasks := stream.tasks.set task result } other =
      if other = task then result else stream.taskState other := by
  by_cases here : other = task
  · subst here
    simp [taskState, bound]
  · simp [taskState, here, Ne.symm here]

theorem PartitionStream.Sound.endTask {stream : PartitionStream}
    (sound : stream.Sound env) (bound : task < stream.tasks.length)
    (notDone : stream.taskState task ≠ .ready)
    (done : stream.taskState task = .inProcess → result = .ready) :
    PartitionStream.Sound env { stream with tasks := stream.tasks.set task result } := by
  refine ⟨fun other decompressed member => ?_, fun other decompressed member => ?_, sound.uniform,
    sound.bypassed⟩
  · have ready := sound.readyTasks other decompressed member
    have differ : other ≠ task := fun same => notDone (same ▸ ready)
    rw [stream.taskState_set bound, if_neg differ, ready]
  · obtain ⟨inside, known⟩ := sound.heldTasks other decompressed member
    refine ⟨by simpa using inside, ?_⟩
    rw [stream.taskState_set bound]
    by_cases same : other = task
    · subst same
      rw [if_pos rfl]
      exact .inr (done (known.resolve_right notDone))
    · rwa [if_neg same]

theorem finishTask_spec (sound : Sound env spared state)
    (orderly : Orderly state (.finishTask stream task)) :
    (finishTask stream task).wp
      ⟨fun _ after => Sound env spared after, fun _ _ => False, fun _ => False⟩ state := by
  obtain ⟨bound, running | cancelled⟩ := orderly
  · simp only [finishTask, wp_rules, running]
    exact sound.changeTasks ((sound.streams stream).endTask bound (by simp [running]) (fun _ => rfl))
  · simp only [finishTask, wp_rules, cancelled]
    exact sound.changeTasks ((sound.streams stream).endTask bound (by simp [cancelled])
      (by simp [cancelled]))

end YdbSdk.Topic.ReadSession
