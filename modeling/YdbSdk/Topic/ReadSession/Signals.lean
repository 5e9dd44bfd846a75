import YdbSdk.Topic.ReadSession.Delivery

namespace YdbSdk.Topic.ReadSession

open YdbSdk.Control YdbSdk.Data Code List

/-! # Events become ready

Every step of the queue touches one partition session.  `Sound.touch` says what has to
be checked of such a step.
-/

variable {env : Environment} {stream : Nat} {spared : Nat → Prop} {state after before : State}
  {event : RawPartitionStreamEvent} {rest : List RawPartitionStreamEvent}

structure Touches (stream : Nat) (before after : State) : Prop where
  streams : ∀ other, other ≠ stream → after.streams other = before.streams other
  pushed : ∀ other, other ≠ stream → after.pushed other = before.pushed other
  handed : ∀ channel other, other ≠ stream →
    after.itemsHanded channel other = before.itemsHanded channel other
  closed : after.closed = before.closed
  closeEvent : after.closeEvent = before.closeEvent
  beforeClose : after.returnedBeforeClose = before.returnedBeforeClose

theorem Touches.delivers
    (touches : Touches stream before after) (differ : other ≠ stream)
    (delivers : before.Delivers env intact channel other) :
    after.Delivers env intact channel other := by
  have sameStream := touches.streams other differ
  refine delivers.move [] (by simp [touches.handed channel other differ])
    (touches.pushed other differ) touches.closed ?_
  cases channel <;> simp [State.staged, sameStream]

theorem Touches.intact (touches : Touches stream before after)
    (differ : other ≠ stream) : after.Intact other ↔ before.Intact other := by
  unfold State.Intact
  rw [touches.pushed other differ]

/-- The announcements of the global queue agree with the queue of ready events. -/
def State.Announces (state : State) : Prop :=
  state.closed = false → ∀ stream, announcedKinds stream state.events =
    (state.streams stream).ready.map RawPartitionStreamEvent.isDataEvent

/-- What has to be checked of a step that touches one partition session. -/
theorem Sound.touchReturning (sound : Sound env spared before)
    (touches : Touches stream before after) (others : ∀ other, other ≠ stream →
      sparedAfter other → spared other) (streamSound : (after.streams stream).Sound env)
    (announces : after.Announces) (counted : ∀ entry ∈ after.events, entry.Counted)
    (emptied : after.closed = true → after.events = []) (delivers : ∀ channel,
      after.Delivers env (sparedAfter stream ∧ after.Intact stream) channel stream)
    (closingLast : after.ClosingLast) : Sound env sparedAfter after := by
  refine ⟨fun other => ?_, announces, counted, emptied, ?_, fun channel other => ?_, closingLast⟩
  · by_cases here : other = stream
    · exact here ▸ streamSound
    · rw [touches.streams other here]
      exact sound.streams other
  · rw [touches.closeEvent, touches.closed, sound.closing]
  · by_cases here : other = stream
    · exact here ▸ delivers channel
    · refine touches.delivers here ((sound.delivers channel other).mono ?_)
      exact fun whole => ⟨others other here whole.1, (touches.intact here).mp whole.2⟩

theorem Sound.touch (sound : Sound env spared before)
    (touches : Touches stream before after) (others : ∀ other, other ≠ stream →
      sparedAfter other → spared other) (streamSound : (after.streams stream).Sound env)
    (announces : after.Announces) (counted : ∀ entry ∈ after.events, entry.Counted)
    (emptied : after.closed = true → after.events = []) (delivers : ∀ channel,
      after.Delivers env (sparedAfter stream ∧ after.Intact stream) channel stream)
    (returned : after.returned = before.returned) : Sound env sparedAfter after := by
  exact sound.touchReturning touches others streamSound announces counted emptied delivers
    (sound.closingLast.congr returned touches.closed touches.beforeClose)

@[simp] theorem State.signalEventImpl_fields (state : State) (stream : Nat) (isDataEvent : Bool) :
    (state.signalEventImpl stream isDataEvent).streams = state.streams ∧
      (state.signalEventImpl stream isDataEvent).pushed = state.pushed ∧
      (state.signalEventImpl stream isDataEvent).handed = state.handed ∧
      (state.signalEventImpl stream isDataEvent).closed = state.closed ∧
      (state.signalEventImpl stream isDataEvent).closeEvent = state.closeEvent ∧
      (state.signalEventImpl stream isDataEvent).returnedBeforeClose =
        state.returnedBeforeClose := by
  rw [signalEventImpl_eq]
  simp

theorem PartitionStream.Sound.held_ready {stream : PartitionStream} (sound : stream.Sound env)
    (member : event ∈ stream.notReady) : stream.isAbandoned event = false := by
  cases event with
  | service event => rfl
  | data task decompressed =>
    rcases (sound.heldTasks task decompressed member).2 with running | done
    · simp [isAbandoned, running]
    · simp [isAbandoned, done]

theorem PartitionStream.Sound.moveToReady {stream : PartitionStream} (sound : stream.Sound env)
    (front : stream.notReady = event :: rest) (isReady : stream.isReady event = true) :
    PartitionStream.Sound env { stream with ready := stream.ready ++ [event], notReady := rest } := by
  refine ⟨fun task decompressed member => ?_, fun task decompressed member => ?_,
    fun task decompressed member => ?_, fun noCallback other member => ?_⟩
  · simp only [mem_append, mem_singleton] at member
    rcases member with earlier | rfl
    · exact sound.readyTasks task decompressed earlier
    · have known := (sound.heldTasks task decompressed (by simp [front])).2
      rcases known with running | done
      · simp [PartitionStream.isReady, running] at isReady
      · exact done
  · exact sound.heldTasks task decompressed (by simp [front, member])
  · refine sound.uniform task decompressed ?_
    simp only [front, mem_append, mem_cons, not_mem_nil, or_false] at member ⊢
    rcases member with (earlier | now) | later
    · exact .inl earlier
    · exact .inr (.inl now)
    · exact .inr (.inr later)
  · exact sound.bypassed noCallback other (by simp [front, member])

theorem PartitionStream.Sound.dropFront {stream : PartitionStream} (sound : stream.Sound env) (split : stream.notReady = front ++ rest) :
    PartitionStream.Sound env { stream with notReady := rest } := by
  refine ⟨sound.readyTasks, fun task decompressed member => ?_,
    fun task decompressed member => ?_, fun noCallback other member => ?_⟩
  · exact sound.heldTasks task decompressed (by simp [split, member])
  · refine sound.uniform task decompressed ?_
    simp only [mem_append] at member
    rcases member with earlier | later
    · simp [earlier]
    · simp [split, later]
  · exact sound.bypassed noCallback other (by simp [split, member])

theorem Sound.moveToReady (sound : Sound env spared state)
    (front : (state.streams stream).notReady = event :: rest)
    (isReady : (state.streams stream).isReady event = true) (way : env.takes .handler event = false)
    (result : after = (state.signalEventImpl stream event.isDataEvent).changeStream stream
      fun queue => { queue with ready := queue.ready ++ [event], notReady := rest }) :
    Sound env spared after := by
  obtain ⟨sameStreams, samePushed, sameHanded, sameClosed, sameCloseEvent, sameBefore⟩ :=
    state.signalEventImpl_fields stream event.isDataEvent
  have here : after.streams stream = { state.streams stream with
      ready := (state.streams stream).ready ++ [event], notReady := rest } := by
    rw [result, State.changeStream_self, sameStreams]
  have elsewhere : ∀ other, other ≠ stream → after.streams other = state.streams other := by
    intro other differ
    rw [result, State.changeStream_other _ _ differ, sameStreams]
  have pushed : after.pushed = state.pushed := by rw [result]; exact samePushed
  have handed : after.handed = state.handed := by rw [result]; exact sameHanded
  have closed : after.closed = state.closed := by rw [result]; exact sameClosed
  have events : after.events = (state.signalEventImpl stream event.isDataEvent).events := by
    rw [result]
    rfl
  have touches : Touches stream state after :=
    ⟨elsewhere, fun other _ => congrFun pushed other,
      fun _ _ _ => by simp only [State.itemsHanded, handed], closed,
      by rw [result]; exact sameCloseEvent, by rw [result]; exact sameBefore⟩
  refine sound.touch touches (fun _ _ => id) ?_ (fun unclosed other => ?_) ?_ (fun wasClosed => ?_)
    (fun channel => ?_) (by simp only [State.returned, handed])
  · rw [here]
    exact (sound.streams stream).moveToReady front isReady
  · rw [closed] at unclosed
    rw [events, State.signalEventImpl_announced unclosed, sound.announced unclosed other]
    by_cases same : other = stream
    · subst same
      simp [here]
    · simp [same, elsewhere other same]
  · rw [events]
    exact State.signalEventImpl_counted sound.counted _ _
  · rw [closed] at wasClosed
    rw [events, State.signalEventImpl_closed wasClosed, sound.emptied wasClosed]
  · refine ((sound.delivers channel stream).mono fun whole => ?_).move [] ?_
      (congrFun pushed stream) closed ?_
    · exact ⟨whole.1, by simpa only [State.Intact, pushed] using whole.2⟩
    · simp [State.itemsHanded, handed]
    · cases channel with
      | returned => simp [State.staged, here, front, env.takes_returned, way]
      | handler => simp [State.staged, here, front, way]

theorem Sound.callHandler {event : UserEvent}
    (sound : Sound env spared state) (split : (state.streams stream).notReady = front ++ rest)
    (way : ∀ event ∈ front, env.takes .handler event = true) (items : ∀ other, event.itemsOf other =
      if other = stream then front.flatMap RawPartitionStreamEvent.items else [])
    (result : after = (state.changeStream stream
      (fun queue => { queue with notReady := rest })).hand .handler event) :
    Sound env spared after := by
  have here : after.streams stream = { state.streams stream with notReady := rest } := by
    rw [result, State.hand_streams, State.changeStream_self]
  have elsewhere : ∀ other, other ≠ stream → after.streams other = state.streams other := by
    intro other differ
    rw [result, State.hand_streams, State.changeStream_other _ _ differ]
  have touches : Touches stream state after := by
    refine ⟨elsewhere, fun _ _ => by rw [result]; rfl, fun channel other differ => ?_,
      by rw [result]; rfl, by rw [result]; rfl, by rw [result]; rfl⟩
    rw [result]
    simp [items, differ]
  have pushed : after.pushed = state.pushed := by rw [result]; rfl
  have unreturned : front.filter (env.takes .returned) = [] := by
    simp only [filter_eq_nil_iff, env.takes_returned]
    exact fun event member => by simp [way event member]
  have called := filter_eq_self.mpr way
  refine sound.touch touches (fun _ _ => id) ?_ (fun unclosed other => ?_) ?_ ?_
    (fun channel => ?_) (by rw [result, State.returned_hand_handler]; rfl)
  · rw [here]
    exact (sound.streams stream).dropFront split
  · rw [touches.closed] at unclosed
    have events : after.events = state.events := by rw [result]; rfl
    rw [events, sound.announced unclosed other]
    by_cases same : other = stream
    · subst same
      rw [here]
    · rw [elsewhere other same]
  · rw [result]
    exact sound.counted
  · rw [result]
    exact sound.emptied
  · refine ((sound.delivers channel stream).mono fun whole => ?_).move
      (front.filter (env.takes channel)) ?_ (congrFun pushed stream) touches.closed ?_
    · exact ⟨whole.1, by simpa only [State.Intact, pushed] using whole.2⟩
    · cases channel with
      | returned => simp [result, unreturned]
      | handler => simp [result, called, items]
    · cases channel with
      | returned => simp [State.staged, here, split, unreturned]
      | handler => simp [State.staged, here, split]

theorem applyCallbackToEventImpl_spec {event : UserEvent}
    (callback : env.eventHandlers.hasDataEventCallback = true) :
    (applyCallbackToEventImpl env event).wp
      ⟨fun _ after => after = state.hand .handler event, fun _ _ => False, fun _ => False⟩
      state := by
  have callbacks : env.eventHandlers.hasEventCallbacks = true := by
    unfold EventHandlers.hasDataEventCallback at callback
    cases some : env.eventHandlers.hasEventCallbacks <;> simp [some] at callback ⊢
  have handler : ¬ env.eventHandlers.dataReceivedHandler = true →
      env.eventHandlers.commonHandler = true := by
    intro noHandler
    simpa [EventHandlers.hasDataEventCallback, callbacks, noHandler] using callback
  simp only [applyCallbackToEventImpl, hand, wp_rules, callbacks]
  exact ⟨fun _ => ⟨fun _ => trivial, fun noHandler => ⟨fun _ => trivial,
    fun noCommon => noCommon (handler noHandler)⟩⟩, fun impossible => by simp at impossible⟩

theorem getRawDataEventImpl_spec (env : Environment) {queue : List RawPartitionStreamEvent}
    (maxEventsCount maxByteSize : Nat)
    (head : (state.streams stream).readyDataInTheHead queue = true)
    (uniform : ∀ task decompressed, .data task decompressed ∈ queue → env.Uniform decompressed) :
    (getRawDataEventImpl stream queue maxEventsCount maxByteSize).wp
      ⟨fun taken after => after = state ∧ ∃ front, queue = front ++ taken.queue ∧
          (∀ event ∈ front, (state.streams stream).isReadyData event = true) ∧
          dataItems taken.messages taken.compressedMessages =
            front.flatMap RawPartitionStreamEvent.items ∧
          front.length + taken.maxEventsCount = maxEventsCount ∧
          (0 < maxEventsCount → 0 < maxByteSize → front ≠ []),
        fun _ _ => False, fun _ => False⟩ state := by
  simp only [getRawDataEventImpl, wp_rules, head]
  refine ⟨fun _ => ⟨trivial, ?_⟩, fun impossible => by simp at impossible⟩
  have nothing : env.Uniform { messages := [], compressedMessages := [] } := by
    unfold Environment.Uniform
    split <;> rfl
  obtain ⟨front, split, allReady, items, count, some⟩ :=
    (state.streams stream).takeReadyData_spec
      { messages := [], compressedMessages := [], maxEventsCount, maxByteSize, queue }
      nothing uniform rfl
  exact ⟨front, split, allReady, by simpa [dataItems] using items, count, some head⟩

theorem signalFront_spec (sound : Sound env spared state)
    (front : (state.streams stream).notReady = event :: rest)
    (isReady : (state.streams stream).isReady event = true) :
    (signalFront env stream event rest).wp
      ⟨fun _ after => Sound env spared after ∧ after.closed = state.closed ∧
          (env.eventHandlers.maxMessagesBytes ≠ 0 →
            (after.streams stream).notReady.length ≤ rest.length),
        fun _ _ => False, fun _ => False⟩ state := by
  have kept := (sound.streams stream).held_ready (by rw [front]; simp : event ∈ _)
  have sameClosed := (state.signalEventImpl_fields stream event.isDataEvent).2.2.2.1
  simp only [signalFront, wp_bind, wp_read, kept, Bool.false_eq_true, if_false]
  cases event with
  | data task decompressed =>
    simp only [wp_ite]
    refine ⟨fun callback => ?_, fun noCallback => ?_⟩
    · have head : (state.streams stream).readyDataInTheHead
          (.data task decompressed :: rest) = true := by
        simp [PartitionStream.readyDataInTheHead, PartitionStream.isReadyData,
          RawPartitionStreamEvent.isDataEvent, isReady, kept]
      simp only [wp_bind]
      refine wp_then (getRawDataEventImpl_spec env maxSize _ head
        (fun other data member => (sound.streams stream).uniform other data
          (by simp only [front, mem_append]; exact .inr member))) ?_
      rintro taken _ ⟨rfl, moved, split, allReady, items, _, some⟩
      simp only [setNotReady, updateStream, wp_update]
      refine wp_then (applyCallbackToEventImpl_spec callback) ?_
      rintro _ after result
      refine ⟨sound.callHandler (front.trans split) ?_ ?_ result, by rw [result]; rfl, ?_⟩
      · intro other member
        have isData := allReady other member
        cases other with
        | data task decompressed => exact callback
        | service event => simp [PartitionStream.isReadyData,
            RawPartitionStreamEvent.isDataEvent] at isData
      · intro other
        simp only [UserEvent.itemsOf, items, eq_comm]
      · intro positive
        have nonempty := some (by decide) (Nat.pos_of_ne_zero positive)
        have lengths := congrArg List.length split
        have longer := length_pos_iff.mpr nonempty
        simp only [length_cons, length_append] at lengths
        rw [result, State.hand_streams, State.changeStream_self]
        show taken.queue.length ≤ rest.length
        omega
    · refine ⟨sound.moveToReady front isReady (by simpa [Environment.takes] using noCallback) rfl, sameClosed, ?_⟩
      simp
  | service event =>
    simp only [tryApplyCallbackToEventImpl, wp_ite, wp_bind]
    refine ⟨fun visited => ?_, fun unvisited => ?_⟩
    · refine ⟨fun _ => ⟨?_, rfl, fun _ => by simp⟩, fun impossible => by simp at impossible⟩
      have alone : (state.streams stream).notReady = [.service event] ++ rest := front
      have result : (state.hand .handler (.service stream event)).changeStream stream
          (fun queue => { queue with notReady := rest }) = (state.changeStream stream
            (fun queue => { queue with notReady := rest })).hand .handler
              (.service stream event) := rfl
      refine sound.callHandler alone ?_ ?_ result
      · simpa [Environment.takes] using visited
      · simp [UserEvent.itemsOf, RawPartitionStreamEvent.items, eq_comm]
    · refine ⟨fun impossible => by simp at impossible, fun _ => ⟨?_, sameClosed, fun _ => by simp⟩⟩
      exact sound.moveToReady front isReady (by simpa [Environment.takes] using unvisited) rfl

/-- Stopping is allowed only in an endless loop, which needs a handler that accepts no
bytes at all. -/
def Environment.Endless (env : Environment) (assertion : Assertion) : Prop :=
  assertion = .endlessLoop ∧ env.eventHandlers.maxMessagesBytes = 0

theorem signalLoop_spec {fuel : Nat} (sound : Sound env spared state)
    (enough : env.eventHandlers.maxMessagesBytes ≠ 0 →
      (state.streams stream).notReady.length < fuel) :
    (signalLoop env stream fuel).wp
      ⟨fun _ after => Sound env spared after ∧ after.closed = state.closed,
        fun _ _ => False, env.Endless⟩ state := by
  induction fuel generalizing state with
  | zero =>
    refine ⟨rfl, ?_⟩
    by_contra positive
    exact absurd (enough positive) (by simp)
  | succ fuel ih =>
    simp only [signalLoop, wp_rules]
    split
    · exact ⟨sound, rfl⟩
    · rename_i event rest front
      have kept := (sound.streams stream).held_ready (by rw [front]; simp : event ∈ _)
      simp only [kept, Bool.or_false, wp_rules]
      refine ⟨fun isReady => ?_, fun _ => ⟨sound, trivial⟩⟩
      refine wp_imp (signalFront_spec sound front isReady) ?_
      rintro _ middle ⟨middleSound, middleClosed, shorter⟩
      refine wp_then (ih middleSound fun positive => ?_) ?_
      · have bound := enough positive
        rw [front, length_cons] at bound
        omega
      · exact fun _ after done => ⟨done.1, done.2.trans middleClosed⟩

theorem signalReadyEvents_spec (sound : Sound env spared state) (stream : Nat) :
    (signalReadyEvents env stream).wp
      ⟨fun _ after => Sound env spared after ∧ after.closed = state.closed,
        fun _ _ => False, env.Endless⟩ state := by
  simp only [signalReadyEvents, wp_rules]
  exact ⟨fun _ => ⟨sound, trivial⟩, fun _ => ⟨fun _ => ⟨sound, trivial⟩,
    fun _ => signalLoop_spec sound fun _ => Nat.lt_succ_self _⟩⟩

end YdbSdk.Topic.ReadSession
