import YdbSdk.Topic.ReadSession.Retrieval

namespace YdbSdk.Topic.ReadSession

open YdbSdk.Control YdbSdk.Data Code

/-! # Events reach the user in the order in which they were pushed -/

theorem sound_start (env : Environment) : Sound env (fun _ => True) {} := by
  refine ⟨fun _ => ?_, fun _ _ => rfl, by simp, fun _ => rfl, rfl, fun channel _ => ?_, ?_⟩
  · constructor <;> simp
  · refine ⟨[], rfl, ?_⟩
    cases channel <;> exact ⟨.slnil, fun _ => List.prefix_rfl, fun _ _ => rfl⟩
  · constructor <;> simp [State.returned]

theorem react_sound {env : Environment} {state : State} {event : Event}
    (sound : Sound env (fun _ => True) state) (orderly : Orderly state event) :
    (react env event).wp (.keeping (Sound env (fun _ => True)) env.Endless) state := by
  cases event with
  | planDecompressionTasks stream committedOffset messages =>
    simp only [react, wp_rules]
    exact wp_imp (planDecompressionTasks_spec stream committedOffset messages sound)
      (fun _ _ => id)
  | finishTask stream task =>
    exact wp_imp (finishTask_spec sound orderly) (fun _ _ => id)
  | signalReadyEvents stream =>
    exact wp_imp (signalReadyEvents_spec sound stream) (fun _ _ => And.left)
  | pushEvent stream event =>
    simp only [react, wp_rules]
    exact wp_imp (pushEvent_spec sound stream event) (fun _ _ => id)
  | getEvents maxEventsCount maxByteSize =>
    exact wp_imp (getEvents_spec maxEventsCount maxByteSize sound) (fun _ _ => id)
  | getEvent maxByteSize =>
    exact wp_imp (getEvent_spec maxByteSize sound) (fun _ _ => id)
  | close status =>
    simp only [react, wp_rules]
    exact wp_imp (close_spec status sound) (fun _ _ => id)
  | clearAllEvents =>
    exact wp_imp (clearAllEvents_spec sound orderly) (fun _ _ => id)
  | extractPartitionStreamQueue stream =>
    exact wp_imp (extractPartitionStreamQueue_spec stream sound orderly) (fun _ _ => id)
  | registerParentPartition | finishReading | unregisterPartition | cancelContext =>
    -- What the session knows about parents and about its context is not in the queue.
    obtain ⟨streams, announced, counted, emptied, closing, delivers, closingLast⟩ := sound
    exact ⟨streams, announced, counted, emptied, closing, delivers, closingLast.congr rfl rfl rfl⟩

theorem sound_of_reaches {env : Environment} {state : State} (reached : Reaches env state) :
    Sound env (fun _ => True) state :=
  reached.invariant (sound_start env) fun _ _ sound orderly => react_sound sound orderly

instance (state : State) (event : Event) : Decidable (Orderly state event) := by
  unfold Orderly
  split <;> infer_instance

/-- Two messages whose tasks finish in the other order, with an acknowledgement of a
commit between them. -/
def outOfOrderEvents : List Event :=
  [.planDecompressionTasks 1 0 [⟨0, 600000, [⟨5, none⟩]⟩],
    .pushEvent 1 ⟨.commitOffsetAcknowledgement, 0⟩,
    .planDecompressionTasks 1 0 [⟨1, 10, [⟨7, none⟩]⟩],
    .finishTask 1 1, .signalReadyEvents 1, .finishTask 1 0, .signalReadyEvents 1,
    .getEvents (some 2) 100]

def acknowledgementHandlerOnly : Environment :=
  { eventHandlers := { commitOffsetAcknowledgementHandler := true } }

/-- A message is decompressed and ready, and then an acknowledgement is pushed. -/
def overtakingEvents : List Event :=
  [.planDecompressionTasks 1 0 [⟨0, 10, [⟨5, none⟩]⟩], .finishTask 1 0, .signalReadyEvents 1,
    .pushEvent 1 ⟨.commitOffsetAcknowledgement, 0⟩]

end YdbSdk.Topic.ReadSession
