import YdbSdk.Control.Run
import YdbSdk.Data.Assoc

namespace YdbSdk.Topic.ReadSession

open YdbSdk.Control YdbSdk.Data

/-! # The events queue of a read session

Every partition session keeps its events in two queues: `NotReady`, filled by the
network side, and `Ready`.  A message waits in `NotReady` until its decompression task
has finished.  The session keeps one global queue, whose entries say from which
partition session the next event is to be taken.
-/

inductive DecompressionTaskState where
  | inProcess
  | cleanup
  | ready
  | abandoned
deriving DecidableEq

inductive ServiceKind where
  | commitOffsetAcknowledgement
  | startPartitionSession
  | stopPartitionSession
  | endPartitionSession
  | partitionSessionStatus
  | partitionSessionClosed
deriving DecidableEq

/-- An event other than data; `number` stands for its contents. -/
structure ServiceEvent where
  kind : ServiceKind
  number : Nat
deriving DecidableEq

/-- One message a codec makes of the data; records of a batch carry an offset delta. -/
structure DecompressedMessage where
  size : Nat
  offsetDelta : Option Nat
deriving DecidableEq

structure MessageData where
  offset : Nat
  size : Nat
  codecResult : List DecompressedMessage
deriving DecidableEq

structure Message where
  offset : Nat
  size : Nat
deriving DecidableEq

structure DecompressedData where
  messages : List Message := []
  compressedMessages : List Message := []
  dataSize : Nat := 0
deriving DecidableEq

/-- The records of a batch that are not yet committed, and all other messages. -/
def addDecompressedMessage (committedOffset : Nat) (data : MessageData)
    (result : DecompressedData) (decompressed : DecompressedMessage) : DecompressedData :=
  let offset := data.offset + decompressed.offsetDelta.getD 0
  if decompressed.offsetDelta.isSome && offset < committedOffset then result
  else
    { result with
      messages := result.messages ++ [{ offset, size := decompressed.size }]
      dataSize := result.dataSize + decompressed.size }

def buildDecompressedData (doDecompress : Bool) (committedOffset : Nat) (data : MessageData) :
    DecompressedData :=
  if doDecompress then
    data.codecResult.foldl (addDecompressedMessage committedOffset data) {}
  else
    { compressedMessages := [{ offset := data.offset, size := data.size }], dataSize := data.size }

inductive RawPartitionStreamEvent where
  | data (task : Nat) (decompressed : DecompressedData)
  | service (event : ServiceEvent)
deriving DecidableEq

def RawPartitionStreamEvent.isDataEvent : RawPartitionStreamEvent → Bool
  | .data _ _ => true
  | .service _ => false

/-- A partition session with its event queue and the states of its decompression tasks.
`contextDropped` is set once the queue has lost its callback context. -/
structure PartitionStream where
  tasks : List DecompressionTaskState := []
  ready : List RawPartitionStreamEvent := []
  notReady : List RawPartitionStreamEvent := []
  contextDropped : Bool := false

namespace PartitionStream

def taskState (stream : PartitionStream) (task : Nat) : DecompressionTaskState :=
  stream.tasks.getD task .inProcess

def isReady (stream : PartitionStream) : RawPartitionStreamEvent → Bool
  | .data task _ => stream.taskState task == .ready || stream.taskState task == .abandoned
  | .service _ => true

def isAbandoned (stream : PartitionStream) : RawPartitionStreamEvent → Bool
  | .data task _ => stream.taskState task == .cleanup || stream.taskState task == .abandoned
  | .service _ => false

def hasEvents (stream : PartitionStream) : Bool :=
  !(stream.ready.isEmpty && stream.notReady.isEmpty)

def topEvent (stream : PartitionStream) : Option RawPartitionStreamEvent :=
  if stream.ready.isEmpty then stream.notReady.head? else stream.ready.head?

def popEvent (stream : PartitionStream) : PartitionStream :=
  if stream.ready.isEmpty then { stream with notReady := stream.notReady.tail }
  else { stream with ready := stream.ready.tail }

/-- Whether the task was cancelled before it was done, and the states afterwards. -/
def setAbandoned (task : Nat) (tasks : List DecompressionTaskState) :
    Bool × List DecompressionTaskState :=
  match tasks.getD task .inProcess with
  | .inProcess => (true, tasks.set task .cleanup)
  | .ready => (false, tasks)
  | _ => (true, tasks)

/-- The events `DeleteNotReadyTail` keeps, and the states of the tasks afterwards. -/
def readyPrefix : Bool → List DecompressionTaskState → List RawPartitionStreamEvent →
    List RawPartitionStreamEvent × List DecompressionTaskState
  | _, tasks, [] => ([], tasks)
  | hasNonReadyEvents, tasks, .service event :: rest =>
    let (kept, after) := readyPrefix hasNonReadyEvents tasks rest
    (if hasNonReadyEvents then kept else .service event :: kept, after)
  | hasNonReadyEvents, tasks, .data task decompressed :: rest =>
    match setAbandoned task tasks with
    | (true, cancelled) => readyPrefix true cancelled rest
    | (false, same) =>
      let (kept, after) := readyPrefix hasNonReadyEvents same rest
      (if hasNonReadyEvents then kept else .data task decompressed :: kept, after)

def deleteNotReadyTail (stream : PartitionStream) : PartitionStream :=
  let (kept, tasks) := readyPrefix false stream.tasks stream.notReady
  { stream with notReady := kept, tasks }

/-- `Cleanup` of a queue taken from the stream cancels the tasks it waited for. -/
def cleanup (queue : List RawPartitionStreamEvent) (tasks : List DecompressionTaskState) :
    List DecompressionTaskState :=
  queue.foldl (fun tasks event =>
    match event with
    | .data task _ => (setAbandoned task tasks).2
    | .service _ => tasks) tasks

def extractQueue (stream : PartitionStream) : PartitionStream :=
  { stream with
    tasks := cleanup (stream.ready ++ stream.notReady) stream.tasks, ready := [], notReady := [] }

end PartitionStream

structure EventHandlers where
  commonHandler : Bool := false
  dataReceivedHandler : Bool := false
  commitOffsetAcknowledgementHandler : Bool := false
  startPartitionSessionHandler : Bool := false
  stopPartitionSessionHandler : Bool := false
  endPartitionSessionHandler : Bool := false
  partitionSessionStatusHandler : Bool := false
  partitionSessionClosedHandler : Bool := false
  sessionClosedHandler : Bool := false
  maxMessagesBytes : Nat := 2 ^ 64 - 1

structure Environment where
  eventHandlers : EventHandlers := {}
  decompress : Bool := true
  partitionId : Nat → Nat := id

namespace EventHandlers

def specific (handlers : EventHandlers) : ServiceKind → Bool
  | .commitOffsetAcknowledgement => handlers.commitOffsetAcknowledgementHandler
  | .startPartitionSession => handlers.startPartitionSessionHandler
  | .stopPartitionSession => handlers.stopPartitionSessionHandler
  | .endPartitionSession => handlers.endPartitionSessionHandler
  | .partitionSessionStatus => handlers.partitionSessionStatusHandler
  | .partitionSessionClosed => handlers.partitionSessionClosedHandler

def hasEventCallbacks (handlers : EventHandlers) : Bool :=
  handlers.commonHandler || handlers.dataReceivedHandler
    || handlers.commitOffsetAcknowledgementHandler || handlers.startPartitionSessionHandler
    || handlers.stopPartitionSessionHandler || handlers.endPartitionSessionHandler
    || handlers.partitionSessionStatusHandler || handlers.partitionSessionClosedHandler
    || handlers.sessionClosedHandler

def hasDataEventCallback (handlers : EventHandlers) : Bool :=
  if !handlers.hasEventCallbacks then false
  else if handlers.dataReceivedHandler then true
  else handlers.commonHandler

end EventHandlers

inductive UserEvent where
  | dataReceived (stream : Nat) (messages compressedMessages : List Message)
  | service (stream : Nat) (event : ServiceEvent)
  | sessionClosed (status : Nat)

/-- The two ways to the user: `GetEvents` and `GetEvent` return events, or a handler is
called with them. -/
inductive Channel where
  | returned
  | handler
deriving DecidableEq

structure ReadSessionEventInfo where
  partitionStream : Nat
  hasDataEvents : Bool
  eventsCount : Nat := 1
deriving DecidableEq

structure ParentInfo where
  partitionId : Nat
  partitionSessionId : Nat

/-- The queue with its partition sessions.  The last three fields are history: what was
pushed for each partition session, what the user was given, in this order, and how many
events were returned before the queue was closed. -/
structure State where
  streams : Nat → PartitionStream := fun _ => {}
  events : List ReadSessionEventInfo := []
  closeEvent : Option Nat := none
  closed : Bool := false
  contextCancelled : Bool := false
  hierarchyData : Assoc Nat (List ParentInfo) := []
  readingFinishedData : List Nat := []
  pushed : Nat → List RawPartitionStreamEvent := fun _ => []
  handed : List (Channel × UserEvent) := []
  returnedBeforeClose : Nat := 0

def State.returned (state : State) : List UserEvent :=
  state.handed.filterMap fun entry => if entry.1 = .returned then some entry.2 else none

/-- The assertions of the queue.  `endlessLoop` stands for a loop of the source that
does not end. -/
inductive Assertion where
  | hasEventCallbacks
  | noDataHandler
  | readyDataInTheHead
  | eventsNotEmpty
  | samePartitionStream
  | eventsCountPositive
  | emptyPartitionQueue
  | taskCleanup
  | endlessLoop

inductive Exception where
  | maxByteSizeIsZero

abbrev Queue := Code Exception Assertion State

def State.changeStream (state : State) (stream : Nat)
    (change : PartitionStream → PartitionStream) : State :=
  { state with streams := Function.update state.streams stream (change (state.streams stream)) }

@[simp] theorem State.changeStream_self (state : State) (stream : Nat)
    (change : PartitionStream → PartitionStream) :
    (state.changeStream stream change).streams stream = change (state.streams stream) := by
  simp [changeStream]

@[simp] theorem State.changeStream_other (state : State)
    (change : PartitionStream → PartitionStream) (differ : other ≠ stream) :
    (state.changeStream stream change).streams other = state.streams other := by
  simp [changeStream, differ]

def updateStream (stream : Nat) (change : PartitionStream → PartitionStream) : Queue Unit :=
  .update fun state => state.changeStream stream change

def State.hand (state : State) (channel : Channel) (event : UserEvent) : State :=
  { state with handed := state.handed ++ [(channel, event)] }

@[simp] theorem State.hand_streams (state : State) (channel : Channel) (event : UserEvent) :
    (state.hand channel event).streams = state.streams := rfl

def hand (channel : Channel) (event : UserEvent) : Queue Unit :=
  .update fun state => state.hand channel event

def State.notePushed (state : State) (stream : Nat) (event : RawPartitionStreamEvent) : State :=
  { state with pushed := Function.update state.pushed stream (state.pushed stream ++ [event]) }

def notePushed (stream : Nat) (event : RawPartitionStreamEvent) : Queue Unit :=
  .update fun state => state.notePushed stream event

/-! ## Parents of a partition -/

def registerParentPartition (partitionId parentPartitionId parentPartitionSessionId : Nat) :
    Queue Unit :=
  .update fun state =>
    let values := (state.hierarchyData.find partitionId).getD []
    { state with
      hierarchyData := state.hierarchyData.insert partitionId
        (values ++ [{ partitionId := parentPartitionId,
                      partitionSessionId := parentPartitionSessionId }]) }

def unregisterPartition (partitionId partitionSessionId : Nat) : Queue Unit :=
  .update fun state =>
    let remaining (values : List ParentInfo) := values.filter fun value =>
      !(value.partitionId == partitionId && value.partitionSessionId < partitionSessionId)
    { state with
      hierarchyData := (state.hierarchyData.map fun entry => (entry.1, remaining entry.2)).filter
        fun entry => !entry.2.isEmpty }

/-- For each parent partition its last session before this one. -/
def State.getParentPartitionSessions (state : State) (partitionId partitionSessionId : Nat) :
    List Nat :=
  let parents := (state.hierarchyData.find partitionId).getD []
  let earlier := parents.takeWhile fun parent => parent.partitionSessionId ≤ partitionSessionId
  let index : Assoc Nat Nat := earlier.foldl
    (fun index parent => index.insert parent.partitionId parent.partitionSessionId) []
  index.map Prod.snd

def State.allParentSessionsHasBeenRead (state : State) (partitionId partitionSessionId : Nat) :
    Bool :=
  (state.getParentPartitionSessions partitionId partitionSessionId).all fun session =>
    state.readingFinishedData.contains session

/-! ## Handlers -/

/-- The service events whose handler, or the common handler, is set. -/
def EventHandlers.visits (handlers : EventHandlers) (event : ServiceEvent) : Bool :=
  handlers.specific event.kind || handlers.commonHandler

def tryApplyCallbackToEventImpl (env : Environment) (stream : Nat) (event : ServiceEvent) :
    Queue Bool := do
  if env.eventHandlers.visits event then
    hand .handler (.service stream event)
    pure true
  else pure false

def applyCallbackToEventImpl (env : Environment) (data : UserEvent) : Queue Unit := do
  .require env.eventHandlers.hasEventCallbacks .hasEventCallbacks
  if env.eventHandlers.dataReceivedHandler then hand .handler data
  else if env.eventHandlers.commonHandler then hand .handler data
  else .stop .noDataHandler

/-! ## Taking data -/

/-- What the loop over the head of a queue has taken, what it left, and what remains of
the two limits. -/
structure TakenData where
  messages : List Message
  compressedMessages : List Message
  maxEventsCount : Nat
  maxByteSize : Nat
  queue : List RawPartitionStreamEvent

def PartitionStream.isReadyData (stream : PartitionStream) (event : RawPartitionStreamEvent) :
    Bool :=
  event.isDataEvent && stream.isReady event && !stream.isAbandoned event

def PartitionStream.readyDataInTheHead (stream : PartitionStream) :
    List RawPartitionStreamEvent → Bool
  | [] => false
  | front :: _ => stream.isReadyData front

def PartitionStream.takeReadyData (stream : PartitionStream) :
    List RawPartitionStreamEvent → TakenData → TakenData
  | .data task decompressed :: rest, taken =>
    if stream.isReadyData (.data task decompressed) && 0 < taken.maxEventsCount
        && 0 < taken.maxByteSize then
      stream.takeReadyData rest
        { messages := taken.messages ++ decompressed.messages
          compressedMessages := taken.compressedMessages ++ decompressed.compressedMessages
          maxEventsCount := taken.maxEventsCount - 1
          maxByteSize := taken.maxByteSize - min taken.maxByteSize decompressed.dataSize
          queue := rest }
    else taken
  | _, taken => taken

/-- `GetDataEventImpl` of a partition session's queue, on either of its two deques. -/
def getRawDataEventImpl (stream : Nat) (queue : List RawPartitionStreamEvent)
    (maxEventsCount maxByteSize : Nat) : Queue TakenData := do
  let partitionStream ← .read (fun state => state.streams stream)
  .require (partitionStream.readyDataInTheHead queue) .readyDataInTheHead
  pure (partitionStream.takeReadyData queue
    { messages := [], compressedMessages := [], maxEventsCount, maxByteSize, queue })

/-! ## Moving events to the user -/

def State.signalEventImpl (state : State) (stream : Nat) (isDataEvent : Bool) : State :=
  if state.closed then state
  else
    match state.events.getLast? with
    | some last =>
      if last.hasDataEvents && isDataEvent && last.partitionStream == stream then
        { state with
          events := state.events.dropLast ++
            [{ last with eventsCount := last.eventsCount + 1 }] }
      else { state with events := state.events ++ [⟨stream, isDataEvent, 1⟩] }
    | none => { state with events := [⟨stream, isDataEvent, 1⟩] }

def moveToReadyQueue (stream : Nat) (event : RawPartitionStreamEvent)
    (rest : List RawPartitionStreamEvent) : Queue Unit := do
  .update fun state => state.signalEventImpl stream event.isDataEvent
  updateStream stream fun partitionStream =>
    { partitionStream with ready := partitionStream.ready ++ [event], notReady := rest }

def setNotReady (stream : Nat) (queue : List RawPartitionStreamEvent) : Queue Unit :=
  updateStream stream fun partitionStream => { partitionStream with notReady := queue }

def maxSize : Nat := 2 ^ 64 - 1

/-- One turn of the loop in `SignalReadyEvents`, for the front of `NotReady`. -/
def signalFront (env : Environment) (stream : Nat) (front : RawPartitionStreamEvent)
    (rest : List RawPartitionStreamEvent) : Queue Unit := do
  let abandoned ← .read (fun state => (state.streams stream).isAbandoned front)
  if abandoned then setNotReady stream rest
  else
    match front with
    | .data _ _ =>
      if env.eventHandlers.hasDataEventCallback then do
        let taken ← getRawDataEventImpl stream (front :: rest) maxSize
          env.eventHandlers.maxMessagesBytes
        setNotReady stream taken.queue
        applyCallbackToEventImpl env
          (.dataReceived stream taken.messages taken.compressedMessages)
      else moveToReadyQueue stream front rest
    | .service event => do
        if ← tryApplyCallbackToEventImpl env stream event then setNotReady stream rest
        else moveToReadyQueue stream front rest

def signalLoop (env : Environment) (stream : Nat) : Nat → Queue Unit
  | 0 => .stop .endlessLoop
  | fuel + 1 => do
      let partitionStream ← .read (fun state => state.streams stream)
      match partitionStream.notReady with
      | [] => pure ()
      | front :: rest =>
        if partitionStream.isReady front || partitionStream.isAbandoned front then do
          signalFront env stream front rest
          signalLoop env stream fuel
        else pure ()

/-- `SignalReadyEvents`.  Every turn of the loop takes at least one event, so that the
length of the queue bounds the number of turns. -/
def signalReadyEvents (env : Environment) (stream : Nat) : Queue Unit := do
  let state ← .get
  if (state.streams stream).contextDropped then pure ()
  else if !state.contextCancelled
      && !state.allParentSessionsHasBeenRead (env.partitionId stream) stream then pure ()
  else signalLoop env stream ((state.streams stream).notReady.length + 1)

/-! ## Pushing -/

def insertEvent (stream : Nat) (event : RawPartitionStreamEvent) : Queue Unit :=
  updateStream stream fun partitionStream =>
    { partitionStream with notReady := partitionStream.notReady ++ [event] }

def pushEvent (env : Environment) (stream : Nat) (event : ServiceEvent) : Queue Bool := do
  if ← .read State.closed then pure false
  else
    .when (event.kind == .partitionSessionClosed) do
      updateStream stream .deleteNotReadyTail
      signalReadyEvents env stream
    notePushed stream (.service event)
    -- Call non-dataEvent callbacks immediately.
    let applied ←
      if !env.eventHandlers.hasDataEventCallback then
        tryApplyCallbackToEventImpl env stream event
      else pure false
    if applied then pure true
    else
      insertEvent stream (.service event)
      signalReadyEvents env stream
      pure true

def pushDataEvent (stream : Nat) (event : RawPartitionStreamEvent) : Queue Bool := do
  if ← .read State.closed then pure false
  else
    notePushed stream event
    insertEvent stream event
    pure true

/-- The size of the data from which a decompression task is full: 512 KB. -/
def taskLimit : Nat := 512 * 1024

/-- Messages are pushed one by one; those of one task share its state. -/
def planMessages (env : Environment) (stream committedOffset : Nat) :
    Nat → Bool → List MessageData → Queue Bool
  | _, added, [] => do
      .when (!added) (updateStream stream fun partitionStream =>
        { partitionStream with tasks := partitionStream.tasks.dropLast })
      pure true
  | addedDataSize, _, data :: rest => do
      let task ← .read (fun state => (state.streams stream).tasks.length - 1)
      let pushed ← pushDataEvent stream
        (.data task (buildDecompressedData env.decompress committedOffset data))
      if !pushed then pure false
      else if taskLimit ≤ addedDataSize + data.size then do
        updateStream stream fun partitionStream =>
          { partitionStream with tasks := partitionStream.tasks ++ [.inProcess] }
        planMessages env stream committedOffset 0 false rest
      else planMessages env stream committedOffset (addedDataSize + data.size) true rest

def planDecompressionTasks (env : Environment) (stream committedOffset : Nat)
    (messages : List MessageData) : Queue Bool := do
  updateStream stream fun partitionStream =>
    { partitionStream with tasks := partitionStream.tasks ++ [.inProcess] }
  planMessages env stream committedOffset 0 false messages

def finishTask (stream task : Nat) : Queue Unit := do
  match ← .read (fun state => (state.streams stream).taskState task) with
  | .inProcess => updateStream stream fun partitionStream =>
    { partitionStream with tasks := partitionStream.tasks.set task .ready }
  | .cleanup => updateStream stream fun partitionStream =>
    { partitionStream with tasks := partitionStream.tasks.set task .abandoned }
  | _ => .stop .taskCleanup

/-! ## Retrieval -/

/-- `GetDataEventImpl` of the session: data of the stream that the global queue names
first.  There is no event if none of the messages taken is for the user. -/
def getDataEventImpl (stream maxByteSize : Nat) : Queue (Option UserEvent × Nat) := do
  let state ← .get
  match state.events with
  | [] => .stop .eventsNotEmpty
  | event :: others => do
      .require (event.partitionStream == stream) .samePartitionStream
      .require (0 < event.eventsCount) .eventsCountPositive
      let taken ← getRawDataEventImpl stream (state.streams stream).ready event.eventsCount
        maxByteSize
      updateStream stream fun partitionStream => { partitionStream with ready := taken.queue }
      .update fun state =>
        { state with
          events := if taken.maxEventsCount = 0 then others
            else { event with eventsCount := taken.maxEventsCount } :: others }
      if taken.messages.isEmpty && taken.compressedMessages.isEmpty then
        pure (none, taken.maxByteSize)
      else
        pure (some (.dataReceived stream taken.messages taken.compressedMessages),
          taken.maxByteSize)

/-- A service event of the stream that the global queue names first. -/
def getServiceEvent (env : Environment) (stream : Nat) (event : ServiceEvent) :
    Queue UserEvent := do
  updateStream stream .popEvent
  .update fun state => { state with events := state.events.tail }
  let cancelled ← .read State.contextCancelled
  .when (event.kind == .partitionSessionClosed && !cancelled)
    (unregisterPartition (env.partitionId stream) stream)
  pure (.service stream event)

def getEventLoop (env : Environment) : Nat → Nat → Queue (Option UserEvent × Nat)
  | 0, _ => .stop .endlessLoop
  | fuel + 1, maxByteSize => do
      let state ← .get
      match state.events with
      | [] => pure (state.closeEvent.map .sessionClosed, maxByteSize)
      | front :: _ =>
        match (state.streams front.partitionStream).topEvent with
        | none => .stop .emptyPartitionQueue
        | some (.data _ _) => do
            let (event, remaining) ← getDataEventImpl front.partitionStream maxByteSize
            if event.isNone && remaining != 0 then getEventLoop env fuel remaining
            else pure (event, remaining)
        | some (.service event) => do
            let event ← getServiceEvent env front.partitionStream event
            pure (some event, maxByteSize)

def announcedCount (events : List ReadSessionEventInfo) : Nat :=
  (events.map ReadSessionEventInfo.eventsCount).sum

/-- `GetEventImpl`: the event and what remains of the byte limit. -/
def getEventImpl (env : Environment) (maxByteSize : Nat) : Queue (Option UserEvent × Nat) := do
  let count ← .read (fun state => announcedCount state.events)
  getEventLoop env (count + 1) maxByteSize

def State.hasEventsImpl (state : State) : Bool :=
  !state.events.isEmpty || state.closeEvent.isSome

def UserEvent.isSessionClosedEvent : UserEvent → Bool
  | .sessionClosed _ => true
  | _ => false

/-- `maxCount` is what remains of the limit on the number of events. -/
def getEventsLoop (env : Environment) : Nat → Option Nat → Nat → Queue Unit
  | 0, _, _ => .stop .endlessLoop
  | fuel + 1, maxCount, maxByteSize => do
      if (← .read State.hasEventsImpl) && maxCount != some 0 && 0 < maxByteSize then
        match ← getEventImpl env maxByteSize with
        | (none, remaining) => getEventsLoop env fuel maxCount remaining
        | (some event, remaining) => do
            hand .returned event
            if event.isSessionClosedEvent then pure ()
            else getEventsLoop env fuel (maxCount.map (· - 1)) remaining
      else pure ()

/-- `GetEvents`, from the moment at which a blocking call finds events. -/
def getEvents (env : Environment) (maxEventsCount : Option Nat) (maxByteSize : Nat) :
    Queue Unit := do
  if maxByteSize = 0 then .raise .maxByteSizeIsZero
  else
    let count ← .read (fun state => announcedCount state.events)
    getEventsLoop env (count + 2) maxEventsCount maxByteSize

def getEvent (env : Environment) (maxByteSize : Nat) : Queue Unit := do
  if maxByteSize = 0 then .raise .maxByteSizeIsZero
  else
    if ← .read State.hasEventsImpl then
      match ← getEventImpl env maxByteSize with
      | (some event, _) => hand .returned event
      | (none, _) => pure ()
    else pure ()

/-! ## Closing -/

/-- Take the queues of all partition sessions that the global queue names. -/
def State.extractAnnounced (state : State) : State :=
  { state with
    events := []
    streams := state.events.foldl (fun streams event =>
      if (streams event.partitionStream).hasEvents then
        Function.update streams event.partitionStream
          (streams event.partitionStream).extractQueue
      else streams) state.streams }

def close (env : Environment) (status : Nat) : Queue Bool := do
  if ← .read State.closed then pure false
  else
    .update .extractAnnounced
    .update fun state =>
      { state with
        closeEvent := some status, closed := true
        returnedBeforeClose := state.returned.length }
    -- The handler is called, and the event can still be retrieved.
    .when (env.eventHandlers.sessionClosedHandler || env.eventHandlers.commonHandler)
      (hand .handler (.sessionClosed status))
    pure true

def clearAllEvents : Queue Unit := .update .extractAnnounced

def extractPartitionStreamQueue (stream : Nat) : Queue Unit :=
  updateStream stream fun partitionStream =>
    { (if partitionStream.hasEvents then partitionStream.extractQueue else partitionStream) with
      ready := [], notReady := [], contextDropped := true }

/-! ## The session -/

inductive Event where
  | planDecompressionTasks (stream committedOffset : Nat) (messages : List MessageData)
  | finishTask (stream task : Nat)
  | signalReadyEvents (stream : Nat)
  | pushEvent (stream : Nat) (event : ServiceEvent)
  | registerParentPartition (partitionId parentPartitionId parentPartitionSessionId : Nat)
  | finishReading (partitionSessionId : Nat)
  | unregisterPartition (partitionId partitionSessionId : Nat)
  | getEvents (maxEventsCount : Option Nat) (maxByteSize : Nat)
  | getEvent (maxByteSize : Nat)
  | close (status : Nat)
  | clearAllEvents
  | extractPartitionStreamQueue (stream : Nat)
  | cancelContext
deriving DecidableEq

def react (env : Environment) : Event → Queue Unit
  | .planDecompressionTasks stream committedOffset messages => do
      let _ ← planDecompressionTasks env stream committedOffset messages
  | .finishTask stream task => finishTask stream task
  | .signalReadyEvents stream => signalReadyEvents env stream
  | .pushEvent stream event => do
      let _ ← pushEvent env stream event
  | .registerParentPartition partitionId parentPartitionId parentPartitionSessionId =>
    registerParentPartition partitionId parentPartitionId parentPartitionSessionId
  | .finishReading partitionSessionId => .update fun state =>
    { state with readingFinishedData := partitionSessionId :: state.readingFinishedData }
  | .unregisterPartition partitionId partitionSessionId =>
    unregisterPartition partitionId partitionSessionId
  | .getEvents maxEventsCount maxByteSize => getEvents env maxEventsCount maxByteSize
  | .getEvent maxByteSize => getEvent env maxByteSize
  | .close status => do
      let _ ← close env status
  | .clearAllEvents => clearAllEvents
  | .extractPartitionStreamQueue stream => extractPartitionStreamQueue stream
  | .cancelContext => .update fun state => { state with contextCancelled := true }

/-- A task ends once, and the queues are taken away only after the queue was closed. -/
def Orderly (state : State) : Event → Prop
  | .finishTask stream task => task < (state.streams stream).tasks.length ∧
      ((state.streams stream).taskState task = .inProcess ∨
        (state.streams stream).taskState task = .cleanup)
  | .clearAllEvents => state.closed = true
  | .extractPartitionStreamQueue _ => state.closed = true
  | _ => True

abbrev Reaches (env : Environment) (state : State) : Prop :=
  Reachable (react env) Orderly {} state

end YdbSdk.Topic.ReadSession
