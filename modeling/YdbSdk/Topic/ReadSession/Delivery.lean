import YdbSdk.Data.Relay
import YdbSdk.Topic.ReadSession.EventsQueue

namespace YdbSdk.Topic.ReadSession

open YdbSdk.Control YdbSdk.Data List

/-! # What reaches the user

Events take one of two ways to the user, fixed by the handlers that are set.  For each
partition session, each way is a relay: the events leave in the order in which they
were pushed.
-/

variable {env : Environment} {stream : Nat} {state before after : State} {intact : Prop}
  {channel : Channel}

inductive Item where
  | message (message : Message)
  | compressedMessage (message : Message)
  | service (event : ServiceEvent)
deriving DecidableEq

def dataItems (messages compressedMessages : List Message) : List Item :=
  messages.map .message ++ compressedMessages.map .compressedMessage

def RawPartitionStreamEvent.items : RawPartitionStreamEvent → List Item
  | .data _ decompressed => dataItems decompressed.messages decompressed.compressedMessages
  | .service event => [.service event]

def UserEvent.itemsOf (stream : Nat) : UserEvent → List Item
  | .dataReceived source messages compressedMessages =>
    if source = stream then dataItems messages compressedMessages else []
  | .service source event => if source = stream then [.service event] else []
  | .sessionClosed _ => []

def State.itemsHanded (state : State) (channel : Channel) (stream : Nat) : List Item :=
  state.handed.flatMap fun entry => if entry.1 = channel then entry.2.itemsOf stream else []

def Environment.takes (env : Environment) : Channel → RawPartitionStreamEvent → Bool
  | .handler, .data _ _ => env.eventHandlers.hasDataEventCallback
  | .handler, .service event => env.eventHandlers.visits event
  | .returned, .data _ _ => !env.eventHandlers.hasDataEventCallback
  | .returned, .service event => !env.eventHandlers.visits event

/-- Only events that are to be returned are staged. -/
def State.staged (state : State) (stream : Nat) : Channel → List RawPartitionStreamEvent
  | .returned => (state.streams stream).ready
  | .handler => []

def State.relay (env : Environment) (state : State) (channel : Channel) (stream : Nat)
    (given : List RawPartitionStreamEvent) : Relay RawPartitionStreamEvent where
  pushed := (state.pushed stream).filter (env.takes channel)
  given := given
  staged := state.staged stream channel
  held := (state.streams stream).notReady.filter (env.takes channel)

/-- The items given to the user are those of events that have left the relay. -/
def State.Delivers (env : Environment) (state : State) (intact : Prop) (channel : Channel)
    (stream : Nat) : Prop :=
  ∃ given,
    state.itemsHanded channel stream = given.flatMap RawPartitionStreamEvent.items ∧
      (state.relay env channel stream given).Faithful intact (state.closed = false)

def State.Intact (state : State) (stream : Nat) : Prop :=
  ∀ event, .service event ∈ state.pushed stream → event.kind ≠ .partitionSessionClosed

/-- The kinds of the events of a partition session, as the global queue announces them. -/
def announcedKinds (stream : Nat) (events : List ReadSessionEventInfo) : List Bool :=
  events.flatMap fun entry =>
    if entry.partitionStream = stream then .replicate entry.eventsCount entry.hasDataEvents
    else []

/-- With decompression there are no compressed messages, and without it only these. -/
def Environment.Uniform (env : Environment) (decompressed : DecompressedData) : Prop :=
  if env.decompress then decompressed.compressedMessages = [] else decompressed.messages = []

structure PartitionStream.Sound (env : Environment) (stream : PartitionStream) : Prop where
  readyTasks : ∀ task decompressed, .data task decompressed ∈ stream.ready →
    stream.taskState task = .ready
  heldTasks : ∀ task decompressed, .data task decompressed ∈ stream.notReady →
    task < stream.tasks.length ∧
      (stream.taskState task = .inProcess ∨ stream.taskState task = .ready)
  uniform : ∀ task decompressed, .data task decompressed ∈ stream.ready ++ stream.notReady →
    env.Uniform decompressed
  bypassed : env.eventHandlers.hasDataEventCallback = false → ∀ event ∈ stream.notReady,
    env.takes .handler event = false

/-- Before the queue is closed no session-closed event is returned, and afterwards only
this event. -/
structure State.ClosingLast (state : State) : Prop where
  ordinary : state.closed = false → ∀ event ∈ state.returned, event.isSessionClosedEvent = false
  before : state.closed = true → ∀ event ∈ state.returned.take state.returnedBeforeClose,
    event.isSessionClosedEvent = false
  after : state.closed = true → ∀ event ∈ state.returned.drop state.returnedBeforeClose,
    event.isSessionClosedEvent = true
  bound : state.closed = true → state.returnedBeforeClose ≤ state.returned.length

theorem State.ClosingLast.congr (closingLast : before.ClosingLast)
    (returned : after.returned = before.returned) (closed : after.closed = before.closed)
    (beforeClose : after.returnedBeforeClose = before.returnedBeforeClose) : after.ClosingLast := by
  obtain ⟨ordinary, earlier, later, bound⟩ := closingLast
  constructor <;> rw [returned, closed]
  · exact ordinary
  · rwa [beforeClose]
  · rwa [beforeClose]
  · rwa [beforeClose]

structure ReadSessionEventInfo.Counted (entry : ReadSessionEventInfo) : Prop where
  positive : 0 < entry.eventsCount
  single : entry.hasDataEvents = false → entry.eventsCount = 1

/-- The invariant of the queue.  A partition session is `spared` unless its queue was
just cut and the event that says so is not yet pushed. -/
structure Sound (env : Environment) (spared : Nat → Prop) (state : State) : Prop where
  streams : ∀ stream, (state.streams stream).Sound env
  announced : state.closed = false → ∀ stream,
    announcedKinds stream state.events =
      (state.streams stream).ready.map RawPartitionStreamEvent.isDataEvent
  counted : ∀ entry ∈ state.events, entry.Counted
  emptied : state.closed = true → state.events = []
  closing : state.closeEvent.isSome = state.closed
  delivers : ∀ channel stream,
    state.Delivers env (spared stream ∧ state.Intact stream) channel stream
  closingLast : state.ClosingLast

theorem PartitionStream.isReadyData_iff (stream : PartitionStream) (task : Nat)
    (decompressed : DecompressedData) :
    stream.isReadyData (.data task decompressed) = true ↔ stream.taskState task = .ready := by
  simp only [isReadyData, RawPartitionStreamEvent.isDataEvent, isReady, isAbandoned]
  cases stream.taskState task <;> decide

theorem dataItems_append {taken : TakenData}
    (uniformTaken : env.Uniform { messages := taken.messages
                                  compressedMessages := taken.compressedMessages })
    (uniform : env.Uniform more) :
    dataItems (taken.messages ++ more.messages)
        (taken.compressedMessages ++ more.compressedMessages) =
      dataItems taken.messages taken.compressedMessages ++
        dataItems more.messages more.compressedMessages := by
  unfold Environment.Uniform at uniformTaken uniform
  split at uniform <;> simp_all [dataItems]

theorem PartitionStream.takeReadyData_spec {stream : PartitionStream}
    {queue : List RawPartitionStreamEvent} (taken : TakenData)
    (uniformTaken : env.Uniform { messages := taken.messages
                                  compressedMessages := taken.compressedMessages })
    (uniform : ∀ task decompressed, .data task decompressed ∈ queue → env.Uniform decompressed)
    (sameQueue : taken.queue = queue) :
    ∃ front, queue = front ++ (stream.takeReadyData queue taken).queue ∧
      (∀ event ∈ front, stream.isReadyData event = true) ∧
      dataItems (stream.takeReadyData queue taken).messages
          (stream.takeReadyData queue taken).compressedMessages =
        dataItems taken.messages taken.compressedMessages ++
          front.flatMap RawPartitionStreamEvent.items ∧
      front.length + (stream.takeReadyData queue taken).maxEventsCount = taken.maxEventsCount ∧
      (stream.readyDataInTheHead queue = true → 0 < taken.maxEventsCount →
        0 < taken.maxByteSize → front ≠ []) := by
  induction queue generalizing taken with
  | nil => exact ⟨[], by simp [takeReadyData, sameQueue, readyDataInTheHead]⟩
  | cons event rest ih =>
    cases event with
    | service event =>
      refine ⟨[], ?_⟩
      simp [takeReadyData, sameQueue, readyDataInTheHead, isReadyData,
        RawPartitionStreamEvent.isDataEvent]
    | data task decompressed =>
      rw [takeReadyData]
      split
      · rename_i goesOn
        simp only [Bool.and_eq_true, decide_eq_true_eq] at goesOn
        have uniformHere := uniform task decompressed (by simp)
        obtain ⟨front, split, allReady, same, count, _⟩ := ih
          { messages := taken.messages ++ decompressed.messages
            compressedMessages := taken.compressedMessages ++ decompressed.compressedMessages
            maxEventsCount := taken.maxEventsCount - 1
            maxByteSize := taken.maxByteSize - min taken.maxByteSize decompressed.dataSize
            queue := rest }
          (by
            unfold Environment.Uniform at uniformTaken uniformHere ⊢
            split at uniformHere <;> simp_all)
          (fun other data member => uniform other data (by simp [member])) rfl
        refine ⟨.data task decompressed :: front, by rw [cons_append, ← split], ?_, ?_, ?_,
          fun _ _ _ => by simp⟩
        · simpa [goesOn.1.1] using allReady
        · rw [same, dataItems_append uniformTaken uniformHere]
          simp [RawPartitionStreamEvent.items]
        · simp only [length_cons]
          have positive := goesOn.1.2
          simp only at count
          omega
      · rename_i stops
        refine ⟨[], by simp [sameQueue], by simp, by simp, by simp, ?_⟩
        intro readyHead positive bytes
        simp [readyDataInTheHead] at readyHead
        simp [readyHead, positive, bytes] at stops

theorem announcedKinds_append (stream : Nat) (first second : List ReadSessionEventInfo) :
    announcedKinds stream (first ++ second) =
      announcedKinds stream first ++ announcedKinds stream second := by
  simp [announcedKinds]

theorem State.signalEventImpl_announced (unclosed : state.closed = false) (stream : Nat)
    (isDataEvent : Bool) (other : Nat) :
    announcedKinds other (state.signalEventImpl stream isDataEvent).events =
      announcedKinds other state.events ++ if other = stream then [isDataEvent] else [] := by
  simp only [signalEventImpl, unclosed, Bool.false_eq_true, if_false]
  rcases eq_nil_or_concat state.events with empty | ⟨init, last, split⟩
  · by_cases here : other = stream
    · simp [empty, announcedKinds, here]
    · simp [empty, announcedKinds, here, Ne.symm here]
  · rw [concat_eq_append] at split
    simp only [split, List.getLast?_append, List.getLast?_singleton, Option.some_or]
    split
    · rename_i extends'
      simp only [Bool.and_eq_true, beq_iff_eq] at extends'
      by_cases here : other = stream
      · simp [announcedKinds, here, extends', replicate_succ']
      · simp [announcedKinds, here, extends', Ne.symm here]
    · by_cases here : other = stream
      · simp [announcedKinds, here]
      · simp [announcedKinds, here, Ne.symm here]

theorem State.signalEventImpl_counted (counted : ∀ entry ∈ state.events, entry.Counted)
    (stream : Nat) (isDataEvent : Bool) :
    ∀ entry ∈ (state.signalEventImpl stream isDataEvent).events, entry.Counted := by
  intro entry member
  unfold signalEventImpl at member
  split at member
  · exact counted entry member
  · split at member
    · split at member
      · rename_i extends'
        simp only [Bool.and_eq_true] at extends'
        simp only [mem_append, mem_singleton] at member
        rcases member with earlier | rfl
        · exact counted entry (dropLast_subset _ earlier)
        · exact ⟨Nat.succ_pos _, by simp [extends']⟩
      · simp only [mem_append, mem_singleton] at member
        rcases member with earlier | rfl
        · exact counted entry earlier
        · exact ⟨Nat.one_pos, fun _ => rfl⟩
    · simp only [mem_singleton] at member
      rw [member]
      exact ⟨Nat.one_pos, fun _ => rfl⟩

theorem State.signalEventImpl_eq (state : State) (stream : Nat) (isDataEvent : Bool) :
    state.signalEventImpl stream isDataEvent =
      { state with events := (state.signalEventImpl stream isDataEvent).events } := by
  unfold signalEventImpl
  split
  · rfl
  · split
    · split <;> rfl
    · rfl

theorem State.signalEventImpl_closed (closed : state.closed = true) (stream : Nat)
    (isDataEvent : Bool) : (state.signalEventImpl stream isDataEvent).events = state.events := by
  simp [signalEventImpl, closed]

@[simp] theorem State.itemsHanded_hand (state : State) (way channel : Channel) (event : UserEvent)
    (stream : Nat) :
    (state.hand way event).itemsHanded channel stream =
      state.itemsHanded channel stream ++ if way = channel then event.itemsOf stream else [] := by
  simp [itemsHanded, hand]

@[simp] theorem State.itemsHanded_changeStream (state : State) (changed : Nat)
    (change : PartitionStream → PartitionStream) (channel : Channel) (stream : Nat) :
    (state.changeStream changed change).itemsHanded channel stream =
      state.itemsHanded channel stream := rfl

@[simp] theorem State.itemsHanded_notePushed (state : State) (pushed : Nat)
    (event : RawPartitionStreamEvent) (channel : Channel) (stream : Nat) :
    (state.notePushed pushed event).itemsHanded channel stream =
      state.itemsHanded channel stream := rfl

@[simp] theorem State.returned_hand_handler (state : State) (event : UserEvent) :
    (state.hand .handler event).returned = state.returned := by
  simp [returned, hand]

theorem State.returned_hand (state : State) (event : UserEvent) :
    (state.hand .returned event).returned = state.returned ++ [event] := by
  simp [returned, hand]

theorem Environment.takes_returned (env : Environment) (event : RawPartitionStreamEvent) :
    env.takes .returned event = !env.takes .handler event := by
  cases event <;> rfl

theorem State.Delivers.move (delivers : before.Delivers env intact channel stream)
    (moved : List RawPartitionStreamEvent) (handed : after.itemsHanded channel stream =
      before.itemsHanded channel stream ++ moved.flatMap RawPartitionStreamEvent.items)
    (pushed : after.pushed stream = before.pushed stream) (closed : after.closed = before.closed)
    (line : moved ++ (after.staged stream channel ++
        (after.streams stream).notReady.filter (env.takes channel)) =
      before.staged stream channel ++
        (before.streams stream).notReady.filter (env.takes channel)) :
    after.Delivers env intact channel stream := by
  obtain ⟨given, same, faithful⟩ := delivers
  refine ⟨given ++ moved, by rw [handed, same, flatMap_append], ?_⟩
  rw [closed]
  refine faithful.move ?_ (by simp [relay, pushed])
  simp only [Relay.line, relay, append_assoc, line]

theorem State.Delivers.push (delivers : before.Delivers env intact channel stream)
    (event : RawPartitionStreamEvent) (moved : List RawPartitionStreamEvent)
    (unclosed : before.closed = false) (handed : after.itemsHanded channel stream =
      before.itemsHanded channel stream ++ moved.flatMap RawPartitionStreamEvent.items)
    (pushed : after.pushed stream = before.pushed stream ++ [event])
    (closed : after.closed = before.closed) (line : moved ++ (after.staged stream channel ++
        (after.streams stream).notReady.filter (env.takes channel)) =
      before.staged stream channel ++ ((before.streams stream).notReady.filter (env.takes channel) ++
        [event].filter (env.takes channel))) : after.Delivers env intact channel stream := by
  obtain ⟨given, same, faithful⟩ := delivers
  refine ⟨given ++ moved, by rw [handed, same, flatMap_append], ?_⟩
  rw [closed]
  refine faithful.push ([event].filter (env.takes channel)) unclosed ?_
    (by simp [relay, pushed])
  simp only [Relay.line, relay, append_assoc, line]

theorem State.Delivers.mono (delivers : state.Delivers env intact channel stream)
    (whole : less → intact) : state.Delivers env less channel stream := by
  obtain ⟨given, same, faithful⟩ := delivers
  exact ⟨given, same, faithful.mono whole id⟩

end YdbSdk.Topic.ReadSession
