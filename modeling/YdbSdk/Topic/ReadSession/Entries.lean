import YdbSdk.Topic.ReadSession.PushOrder

namespace YdbSdk.Topic.ReadSession

open YdbSdk.Control YdbSdk.Data

/-! # The entries of the global queue and the ready events behind them -/

def announcedFor (stream : Nat) (events : List ReadSessionEventInfo) : Nat :=
  ((events.filter fun entry => entry.partitionStream = stream).map
    ReadSessionEventInfo.eventsCount).sum

theorem length_announcedKinds (stream : Nat) (events : List ReadSessionEventInfo) :
    (announcedKinds stream events).length = announcedFor stream events := by
  induction events with
  | nil => rfl
  | cons entry rest ih =>
    rw [announcedKinds_cons, List.length_append, ih]
    by_cases here : entry.partitionStream = stream
    · simp [announcedFor, here]
    · simp [announcedFor, here]

theorem Sound.front_ready
    (sound : Sound env spared state) (events : state.events = entry :: others) :
    0 < entry.eventsCount ∧ ∃ event rest,
      (state.streams entry.partitionStream).ready = event :: rest ∧
        event.isDataEvent = entry.hasDataEvents ∧
        (state.streams entry.partitionStream).isReady event = true ∧
        (state.streams entry.partitionStream).isAbandoned event = false := by
  obtain ⟨_, counted, event, rest, ready, kind⟩ := sound.front events
  refine ⟨counted.positive, event, rest, ready, kind, ?_⟩
  cases event with
  | service event => exact ⟨rfl, rfl⟩
  | data task decompressed =>
    have finished := (sound.streams entry.partitionStream).readyTasks task decompressed
      (by simp [ready])
    simp [PartitionStream.isReady, PartitionStream.isAbandoned, finished]

theorem Sound.retrieval_succeeds {env : Environment} {state : State}
    (sound : Sound env (fun _ => True) state) (maxEventsCount : Option Nat) (maxByteSize : Nat)
    (assertion : Assertion) :
    (react env (.getEvents maxEventsCount maxByteSize)).step state ≠ .error assertion ∧
      (react env (.getEvent maxByteSize)).step state ≠ .error assertion := by
  constructor
  · intro failed
    have met : (react env (.getEvents maxEventsCount maxByteSize)).wp
        (.keeping (Sound env (fun _ => True)) (fun _ => False)) state :=
      Code.wp_then (getEvents_spec maxEventsCount maxByteSize sound) (fun _ _ => id)
    exact Code.wp_step_error met failed
  · intro failed
    have met : (react env (.getEvent maxByteSize)).wp
        (.keeping (Sound env (fun _ => True)) (fun _ => False)) state :=
      Code.wp_then (getEvent_spec maxByteSize sound) (fun _ _ => id)
    exact Code.wp_step_error met failed

/-- While the queue is open, its entries announce exactly the ready events of each
partition session, in their order and with their kinds; consecutive data events may
share an entry that counts them.  A closed queue has no entries.  The front entry
always has a ready event behind it, and no retrieval fails an assertion. -/
theorem entries_announce_ready_events (env : Environment) {state : State}
    (reached : Reaches env state) :
    (state.closed = false → ∀ stream,
      announcedKinds stream state.events =
          (state.streams stream).ready.map RawPartitionStreamEvent.isDataEvent ∧
        announcedFor stream state.events = (state.streams stream).ready.length) ∧
    (state.closed = true → state.events = []) ∧
    (∀ entry others, state.events = entry :: others →
      0 < entry.eventsCount ∧ ∃ event rest,
        (state.streams entry.partitionStream).ready = event :: rest ∧
          event.isDataEvent = entry.hasDataEvents ∧
          (state.streams entry.partitionStream).isReady event = true ∧
          (state.streams entry.partitionStream).isAbandoned event = false) ∧
    (∀ maxEventsCount maxByteSize assertion,
      (react env (.getEvents maxEventsCount maxByteSize)).step state ≠ .error assertion ∧
        (react env (.getEvent maxByteSize)).step state ≠ .error assertion) := by
  have sound := sound_of_reaches reached
  refine ⟨fun unclosed stream => ?_, sound.emptied, fun _ _ events => sound.front_ready events,
    sound.retrieval_succeeds⟩
  have announced := sound.announced unclosed stream
  refine ⟨announced, ?_⟩
  rw [← length_announcedKinds, announced, List.length_map]

/-- Two messages of one task share an entry; an acknowledgement has its own. -/
theorem entries_announce_ready_events_of_shared_entry :
    ∃ state, Reaches {} state ∧ state.events = [⟨1, true, 2⟩, ⟨1, false, 1⟩] ∧
      announcedFor 1 state.events = (state.streams 1).ready.length ∧
      ∀ assertion, (react {} (.getEvent 6)).step state ≠ .error assertion := by
  obtain ⟨state, reached, unclosed, events⟩ : ∃ state, Reaches {} state ∧ state.closed = false ∧
      state.events = [⟨1, true, 2⟩, ⟨1, false, 1⟩] :=
    exists_reachable [.planDecompressionTasks 1 0 [⟨0, 10, [⟨5, none⟩]⟩, ⟨1, 10, [⟨7, none⟩]⟩],
      .pushEvent 1 ⟨.commitOffsetAcknowledgement, 0⟩, .finishTask 1 0, .signalReadyEvents 1]
      (by decide +kernel)
  obtain ⟨announced, _, _, retrieval⟩ := entries_announce_ready_events {} reached
  exact ⟨state, reached, events, (announced unclosed 1).2, fun assertion =>
    (retrieval none 6 assertion).2⟩

/-- A message whose task ends after the queue was closed becomes ready and has no
entry. -/
theorem closed_queue_leaves_ready_event_unannounced :
    ∃ state, Reaches {} state ∧ state.events = [] ∧
      (state.streams 1).ready = [.data 0 { messages := [⟨0, 5⟩], dataSize := 5 }] :=
  exists_reachable [.planDecompressionTasks 1 0 [⟨0, 10, [⟨5, none⟩]⟩], .close 0, .finishTask 1 0,
    .signalReadyEvents 1] (by decide +kernel)

end YdbSdk.Topic.ReadSession
