import YdbSdk.Topic.ReadSession.EventsQueue

namespace YdbSdk.Topic.ReadFlow

open YdbSdk.Control
open YdbSdk.Topic.ReadSession (DecompressionTaskState taskLimit)

/-! # The flow of data through a read session

`TSingleClusterReadSessionImpl` asks the server for as many bytes as its budget allows,
keeps the data of a response in a `TDataDecompressionInfo` until tasks have decompressed
it and the user has taken it, and counts what it holds.  An info counts as well, and
tells the session through calls that wait for the session's lock.  So the two halves of
a call are two steps here: what the info does, and later what the session does.

Which messages a partition session's queue gives to the user or drops is decided in
`EventsQueue`; here any messages of finished tasks may be taken and any may be dropped.
-/

/-- One message of a response.  `decompressedSize` is the size of what the user gets for
it, and `gapRefused` says that `AddToCommitRanges` throws for the offsets before it. -/
structure MessageData where
  size : Nat
  uncompressedSize : Nat := 0
  decompressedSize : Nat := 0
  gapRefused : Bool := false
deriving DecidableEq

/-- The data of one partition session in a response.  `cookieRefused` says that the
cookie mapping of the migration protocol already has the cookie. -/
structure PartitionData where
  partitionSession : Nat
  messages : List MessageData
  cookieRefused : Bool := false
deriving DecidableEq

/-- How far a decompression task is.  Of a `decompressed` task the info knows and the
session does not; an `accounted` one has not yet announced its messages. -/
inductive Phase where
  | planned
  | started
  | decompressed
  | accounted
  | finished
  | canceled
deriving DecidableEq

/-- `held` are the sizes of the task's messages that nobody has taken, and
`serverBytesSize` is what a `decompressed` task brings back to the session. -/
structure DecompressionTask where
  sourceDataSize : Nat := 0
  estimatedDecompressedSize : Nat := 0
  held : List Nat := []
  phase : Phase := .planned
  state : DecompressionTaskState := .inProcess
  serverBytesSize : Int := 0

/-- `unplanned` is the size of the messages that no task was planned for, because the
events queue was closed meanwhile. -/
structure DataDecompressionInfo where
  compressedDataSize : Int := 0
  decompressedDataSize : Int := 0
  serverBytesSize : Int := 0
  tasks : List DecompressionTask := []
  unplanned : Nat := 0

inductive Call where
  | onUserRetrievedEvent (info : Nat) (decompressedSize : Int)
  | onDecompressionTaskCanceled (info : Nat) (sourceSize serverBytesSize : Int)
  | onDecompressionInfoDestroy (compressedSize decompressedSize serverBytesSize : Int)

/-- Whether the call keeps its info alive. -/
def Call.refersTo (index : Nat) : Call → Bool
  | .onUserRetrievedEvent info _ => info == index
  | .onDecompressionTaskCanceled info _ _ => info == index
  | .onDecompressionInfoDestroy _ _ _ => false

structure Environment where
  useMigrationProtocol : Bool := false
  directRead : Bool := false
  decompressEverything : Bool := false
  maxMemoryUsageBytes : Nat := 104857600

/-- The infos are named by their position, and a destroyed one is empty.  `cleanups` are
the infos for which a deferred `Cleanup` is due.  `closesAfter` counts the pushes that
the events queue still takes if it is being closed.  `connecting` says that a connection
is awaited.  `initReceived` and `requests` are history: whether the connection got its
init response, and the sizes asked for. -/
structure State where
  closing : Bool := false
  aborting : Bool := false
  waitingReadResponse : Bool := false
  dataReadingSuspended : Bool := false
  processor : Bool := false
  connecting : Bool := true
  compressedDataSize : Int := 0
  decompressedDataSize : Int := 0
  averageCompressionRatio : Rat := 1
  readSizeBudget : Int
  readSizeServerDelta : Int := 0
  partitionStreams : List Nat := []
  infos : List DataDecompressionInfo := []
  decompressionQueue : List Nat := []
  cleanups : List Nat := []
  calls : List Call := []
  closesAfter : Option Nat := none
  initReceived : Bool := false
  requests : List Int := []

inductive Assertion where
  | decompressedSizeCovers
  | limitPositive
  | taskCleanup
  /-- `Processor->Cancel()` without a processor: no assertion of the source, but
  undefined. -/
  | noProcessor

inductive Exception where
  | invalidOffsetRange

abbrev Session := Code Exception Assertion State

def State.info (state : State) (index : Nat) : DataDecompressionInfo := state.infos.getD index {}

def State.changeInfo (state : State) (index : Nat)
    (change : DataDecompressionInfo → DataDecompressionInfo) : State :=
  { state with infos := state.infos.modify index change }

def call (pending : Call) : Session Unit :=
  .update fun state => { state with calls := state.calls ++ [pending] }

/-! ## Limits -/

/-- The ratio is a double in the source and an exact number here. -/
def Environment.getCompressedDataSizeLimit (env : Environment) (averageCompressionRatio : Rat) :
    Int :=
  max 1 (env.maxMemoryUsageBytes / (1 + averageCompressionRatio)).floor

def Environment.getDecompressedDataSizeLimit (env : Environment) (averageCompressionRatio : Rat) :
    Int :=
  max 1 (env.maxMemoryUsageBytes - env.getCompressedDataSizeLimit averageCompressionRatio)

/-- The sum is cast to an unsigned type, so a negative one is above every limit. -/
def State.withinMemory (env : Environment) (state : State) : Bool :=
  0 ≤ state.compressedDataSize + state.decompressedDataSize &&
    state.compressedDataSize + state.decompressedDataSize < env.maxMemoryUsageBytes

/-- What `ContinueReadingDataImpl` asks before it looks at the budget. -/
def State.mayContinueReading (env : Environment) (state : State) : Bool :=
  !state.closing && !state.aborting && !state.waitingReadResponse && !state.dataReadingSuspended
    && state.processor
    && state.compressedDataSize < env.getCompressedDataSizeLimit state.averageCompressionRatio
    && state.withinMemory env

def continueReadingDataImpl (env : Environment) : Session Unit := do
  let state ← .get
  if state.mayContinueReading env then
    if env.useMigrationProtocol then
      .update fun state => { state with waitingReadResponse := true }
    else if state.readSizeBudget ≤ 0 ∨ state.readSizeServerDelta + state.readSizeBudget ≤ 0 then
      pure ()
    else
      .update fun state =>
        { state with
          requests := state.requests ++ [state.readSizeBudget]
          readSizeServerDelta := state.readSizeServerDelta + state.readSizeBudget
          readSizeBudget := 0
          waitingReadResponse := true }
  else pure ()

/-! ## Decompression -/

/-- Start planned tasks while memory is available; the second result is the estimate of
what they will take. -/
def startTasks : Int → List DecompressionTask → List DecompressionTask × Int
  | _, [] => ([], 0)
  | availableMemory, task :: rest =>
    if task.phase = .planned then
      if 0 < availableMemory then
        let (others, used) :=
          startTasks (availableMemory - task.estimatedDecompressedSize) rest
        ({ task with phase := .started } :: others, task.estimatedDecompressedSize + used)
      else (task :: rest, 0)
    else
      let (others, used) := startTasks availableMemory rest
      (task :: others, used)

def DataDecompressionInfo.allDecompressionTasksStarted (info : DataDecompressionInfo) : Bool :=
  info.tasks.all fun task => task.phase != .planned

def State.mayDecompress (env : Environment) (limit : Int) (state : State) : Bool :=
  env.decompressEverything ||
    (state.decompressedDataSize < limit &&
      (state.withinMemory env || state.decompressedDataSize == 0))

/-- The loop of `StartDecompressionTasksImpl`; its list is the decompression queue. -/
def startDecompressionLoop (env : Environment) (limit : Int) : List Nat → Session Unit
  | [] => pure ()
  | index :: rest => do
      let state ← .get
      if state.mayDecompress env limit then
        let available := max (limit - state.decompressedDataSize) 1
        .update fun state =>
          { state.changeInfo index (fun info =>
              { info with tasks := (startTasks available info.tasks).1 }) with
            decompressedDataSize := state.decompressedDataSize +
              (startTasks available (state.info index).tasks).2 }
        if (← .read (fun state => state.info index)).allDecompressionTasksStarted then
          .update fun state =>
            { state with cleanups := state.cleanups ++ [index], decompressionQueue := rest }
          startDecompressionLoop env limit rest
        else pure ()
      else pure ()

def startDecompressionTasksImpl (env : Environment) : Session Unit := do
  let state ← .get
  if state.aborting then pure ()
  else
    let limit := env.getDecompressedDataSizeLimit state.averageCompressionRatio
    .require (0 < limit) .limitPositive
    startDecompressionLoop env limit state.decompressionQueue

/-! ## Closing -/

def cleanupDecompressionQueueImpl : Session Unit :=
  .update fun state =>
    { state with cleanups := state.cleanups ++ state.decompressionQueue, decompressionQueue := [] }

def abortImpl : Session Unit := do
  .update fun state => { state with aborting := true }
  cleanupDecompressionQueueImpl

/-- `Close`: with or without commits in flight it ends in `AbortImpl`. -/
def close : Session Unit := do
  .update fun state => { state with closing := true }
  abortImpl

def State.closeQueue (state : State) (pushes : Nat) : State :=
  { state with closesAfter := some (min pushes (state.closesAfter.getD pushes)) }

def pushEvent : Session Bool := do
  match ← .read State.closesAfter with
  | none => pure true
  | some 0 => pure false
  | some (pushes + 1) => do
      .update fun state => { state with closesAfter := some pushes }
      pure true

/-! ## Responses -/

/-- `Add` of a task; the estimate uses the average compression ratio if the server does
not give the size. -/
def DecompressionTask.add (averageCompressionRatio : Rat) (task : DecompressionTask)
    (data : MessageData) : DecompressionTask :=
  let estimated := if data.uncompressedSize = 0 then (data.size * averageCompressionRatio).floor.toNat
    else data.uncompressedSize
  { task with
    sourceDataSize := task.sourceDataSize + data.size
    estimatedDecompressedSize := task.estimatedDecompressedSize + estimated
    held := task.held ++ [data.decompressedSize] }

def totalSize (messages : List MessageData) : Nat := (messages.map MessageData.size).sum

/-- The loop of `PlanDecompressionTasks`.  If the queue does not take a message, the task
under construction is lost; the second result is the size of the messages without a
task. -/
def planTasks (averageCompressionRatio : Rat) : DecompressionTask → List DecompressionTask →
    List MessageData → Session (List DecompressionTask × Option Nat)
  | task, tasks, [] => pure (if task.held.isEmpty then tasks else tasks ++ [task], none)
  | task, tasks, data :: rest => do
      if ← pushEvent then
        let task := task.add averageCompressionRatio data
        if taskLimit ≤ task.sourceDataSize then
          planTasks averageCompressionRatio {} (tasks ++ [task]) rest
        else planTasks averageCompressionRatio task tasks rest
      else pure (tasks, some (task.sourceDataSize + totalSize (data :: rest)))

def acceptData (env : Environment) (serverBytesSize : Int) (data : PartitionData) :
    Session Bool := do
  let ratio ← .read State.averageCompressionRatio
  let (tasks, unplanned) ← planTasks ratio {} [] data.messages
  let index ← .read (fun state => state.infos.length)
  .update fun state =>
    { state with
      infos := state.infos ++
        [{ compressedDataSize := totalSize data.messages, serverBytesSize, tasks
           unplanned := unplanned.getD 0 }] }
  if unplanned.isSome then
    .update fun state => { state with cleanups := state.cleanups ++ [index] }
    abortImpl
    pure false
  else
    .update fun state => { state with decompressionQueue := state.decompressionQueue ++ [index] }
    startDecompressionTasksImpl env
    pure true

def breakConnectionAndReconnectImpl : Session Unit := do
  .require (← .read State.processor) .noProcessor
  .update fun state => { state with processor := false }

/-- The size of a message is counted before the gap in front of it is looked at. -/
def countMessages : List MessageData → Session Unit
  | [] => pure ()
  | data :: rest => do
      .update fun state => { state with compressedDataSize := state.compressedDataSize + data.size }
      if data.gapRefused then .raise .invalidOffsetRange
      else countMessages rest

/-- The loop over the partitions of a `ReadResponse`.  The answer is whether it came to
its end. -/
def acceptPartitions (env : Environment) : Int → List PartitionData → Session Bool
  | _, [] => pure true
  | serverBytesSize, data :: rest => do
      if !(← .read State.partitionStreams).contains data.partitionSession then
        if env.directRead then acceptPartitions env serverBytesSize rest
        else
          breakConnectionAndReconnectImpl
          pure false
      else
        countMessages data.messages
        if data.messages.isEmpty then
          breakConnectionAndReconnectImpl
          pure false
        else if ← acceptData env serverBytesSize data then
          -- The whole size of the response goes with its first partition.
          acceptPartitions env 0 rest
        else pure false

def readNext (env : Environment) : Session Unit := do
  .update fun state => { state with waitingReadResponse := false }
  continueReadingDataImpl env

def onReadResponse (env : Environment) (bytesSize : Nat) (partitions : List PartitionData) :
    Session Unit := do
  let state ← .get
  if state.closing || state.aborting then pure ()
  else
    .update fun state =>
      { state with readSizeServerDelta := state.readSizeServerDelta - bytesSize }
    .when (← acceptPartitions env bytesSize partitions) (readNext env)

/-- In the migration protocol a refused gap comes before the size is counted. -/
def countBatchMessages : List MessageData → Session Unit
  | [] => pure ()
  | data :: rest => do
      if data.gapRefused then .raise .invalidOffsetRange
      else
        .update fun state =>
          { state with compressedDataSize := state.compressedDataSize + data.size }
        countBatchMessages rest

def acceptBatchPartitions (env : Environment) : List PartitionData → Session Bool
  | [] => pure true
  | data :: rest => do
      if !(← .read State.partitionStreams).contains data.partitionSession then
        breakConnectionAndReconnectImpl
        pure false
      else
        countBatchMessages data.messages
        if data.messages.isEmpty then
          breakConnectionAndReconnectImpl
          pure false
        else if data.cookieRefused then
          breakConnectionAndReconnectImpl
          pure false
        else if ← acceptData env 0 data then acceptBatchPartitions env rest
        else pure false

def onDataBatch (env : Environment) (partitions : List PartitionData) : Session Unit := do
  let state ← .get
  if state.closing || state.aborting then pure ()
  else .when (← acceptBatchPartitions env partitions) (readNext env)

/-- `OnDirectReadDone`; without `data` the response has no batches. -/
def onDirectReadDone (env : Environment) (partitionSession bytesSize : Nat)
    (data : Option PartitionData) : Session Unit := do
  if !(← .read State.partitionStreams).contains partitionSession then pure ()
  else
    match data with
    | none => do
        .update fun state =>
          { state with
            readSizeBudget := state.readSizeBudget + bytesSize
            readSizeServerDelta := state.readSizeServerDelta - bytesSize }
        readNext env
    | some data => onReadResponse env bytesSize [data]

/-! ## Connections -/

def onConnect : Session Unit := do
  let state ← .get
  .when state.connecting do
    .update fun state => { state with connecting := false }
    if state.closing || state.aborting then abortImpl
    else .update fun state => { state with processor := true, initReceived := false }

def onInitResponse (env : Environment) : Session Unit := do
  .update fun state => { state with initReceived := true }
  continueReadingDataImpl env

def destroyAllPartitionStreamsImpl : List Nat → Session Unit
  | [] => .update fun state => { state with partitionStreams := [] }
  | _ :: rest => do
      if ← pushEvent then destroyAllPartitionStreamsImpl rest
      else abortImpl

/-- `Reconnect`; without a `retry` the session is closed. -/
def reconnect (retry : Bool) : Session Unit := do
  if ← .read State.aborting then .update fun state => state.closeQueue 0
  else
    .update fun state =>
      { state with
        processor := false
        waitingReadResponse := false
        readSizeBudget := state.readSizeBudget + state.readSizeServerDelta
        readSizeServerDelta := 0 }
    if retry then
      .update fun state => { state with connecting := true }
      destroyAllPartitionStreamsImpl (← .read State.partitionStreams)
    else .update fun state => state.closeQueue 0

def startPartitionSession (partitionSession : Nat) : Session Unit := do
  .update fun state =>
    { state with
      partitionStreams := partitionSession :: state.partitionStreams.erase partitionSession }
  if ← pushEvent then pure ()
  else abortImpl

def stopPartitionSession (partitionSession : Nat) : Session Unit := do
  .update fun state =>
    { state with partitionStreams := state.partitionStreams.erase partitionSession }
  if ← pushEvent then pure ()
  else abortImpl

/-! ## Decompression infos -/

def DataDecompressionInfo.changeTask (info : DataDecompressionInfo) (index : Nat)
    (change : DecompressionTask → DecompressionTask) : DataDecompressionInfo :=
  { info with tasks := info.tasks.modify index change }

def State.task? (state : State) (info task : Nat) : Option DecompressionTask :=
  (state.info info).tasks[task]?

def DataDecompressionInfo.onDataDecompressed (index : Nat) (task : DecompressionTask)
    (info : DataDecompressionInfo) : DataDecompressionInfo :=
  { info.changeTask index (fun task =>
      { task with phase := .decompressed, serverBytesSize := info.serverBytesSize }) with
    compressedDataSize := info.compressedDataSize - task.sourceDataSize
    decompressedDataSize := info.decompressedDataSize + task.held.sum
    serverBytesSize := 0 }

def runTask (info index : Nat) : Session Unit := do
  match ← .read (fun state => state.task? info index) with
  | none => pure ()
  | some task =>
    .when (task.phase == .started)
      (.update fun state => state.changeInfo info (.onDataDecompressed index task))

def returnToBudget (env : Environment) (serverBytesSize : Int) : Session Unit :=
  .when (!env.useMigrationProtocol)
    (.update fun state => { state with readSizeBudget := state.readSizeBudget + serverBytesSize })

/-- The weight of the last task in the average is 0.6. -/
def newAverage (task : DecompressionTask) (average : Rat) : Rat :=
  if 0 < task.sourceDataSize ∧ 0 < task.held.sum then
    3 / 5 * ((task.held.sum : Rat) / task.sourceDataSize) + 2 / 5 * average
  else average

def onDataDecompressed (env : Environment) (info index : Nat) : Session Unit := do
  match ← .read (fun state => state.task? info index) with
  | none => pure ()
  | some task => .when (task.phase == .decompressed) do
      .update fun state =>
        { state.changeInfo info (fun info =>
            info.changeTask index fun task => { task with phase := .accounted }) with
          compressedDataSize := state.compressedDataSize - task.sourceDataSize
          decompressedDataSize := state.decompressedDataSize +
            (task.held.sum - task.estimatedDecompressedSize)
          averageCompressionRatio := newAverage task state.averageCompressionRatio }
      if ← .read State.aborting then pure ()
      else
        returnToBudget env task.serverBytesSize
        continueReadingDataImpl env
        startDecompressionTasksImpl env

/-- The messages of an accounted task become ready, unless a cleanup has claimed it. -/
def finishTask (info index : Nat) : Session Unit := do
  match ← .read (fun state => state.task? info index) with
  | none => pure ()
  | some task => .when (task.phase == .accounted) do
      match task.state with
      | .inProcess => .update fun state => state.changeInfo info fun info =>
        info.changeTask index fun task => { task with phase := .finished, state := .ready }
      | .cleanup => do
          .update fun state => state.changeInfo info fun info =>
            { info.changeTask index (fun task =>
                { task with phase := .finished, state := .abandoned, held := [] }) with
              decompressedDataSize := info.decompressedDataSize - task.held.sum }
          call (.onUserRetrievedEvent info task.held.sum)
      | _ => .stop .taskCleanup

/-- Take messages of ready tasks, so many of each; the second result is their size. -/
def takeReady : List Nat → List DecompressionTask → List DecompressionTask × Nat
  | count :: counts, task :: rest =>
    let (others, size) := takeReady counts rest
    if task.state = .ready then
      ({ task with held := task.held.drop count } :: others, (task.held.take count).sum + size)
    else (task :: others, size)
  | _, tasks => (tasks, 0)

def retrieve (info : Nat) (counts : List Nat) : Session Unit := do
  let (tasks, size) ← .read (fun state => takeReady counts (state.info info).tasks)
  .update fun state => state.changeInfo info fun info =>
    { info with tasks, decompressedDataSize := info.decompressedDataSize - size }
  call (.onUserRetrievedEvent info size)

/-- Drop messages from the queue of a partition session, so many of each task.  An
unfinished task is claimed by a cleanup; the last result is whether there was one. -/
def dropMessages : List Nat → List DecompressionTask → List DecompressionTask × Nat × Bool
  | 0 :: counts, task :: rest =>
    let (others, size, unfinished) := dropMessages counts rest
    (task :: others, size, unfinished)
  | count :: counts, task :: rest =>
    let (others, size, unfinished) := dropMessages counts rest
    match task.state with
    | .inProcess => ({ task with state := .cleanup } :: others, size, true)
    | .ready => ({ task with held := task.held.drop count } :: others,
        (task.held.take count).sum + size, unfinished)
    | _ => (task :: others, size, true)
  | _, tasks => (tasks, 0, false)

/-- `DeleteNotReadyTail` of a queue, or the `Cleanup` of a whole one, for the messages of
one info. -/
def drop (info : Nat) (counts : List Nat) : Session Unit := do
  let (tasks, size, unfinished) ← .read (fun state => dropMessages counts (state.info info).tasks)
  .update fun state => state.changeInfo info fun info =>
    { info with tasks, decompressedDataSize := info.decompressedDataSize - size }
  call (.onUserRetrievedEvent info size)
  .when unfinished
    (.update fun state => { state with cleanups := state.cleanups ++ [info] })

def plannedSize (tasks : List DecompressionTask) : Nat :=
  ((tasks.filter fun task => task.phase = .planned).map DecompressionTask.sourceDataSize).sum

def cancelPlanned (task : DecompressionTask) : DecompressionTask :=
  if task.phase = .planned then { task with phase := .canceled } else task

def cleanup (index : Nat) : Session Unit := do
  match (← .read State.cleanups)[index]? with
  | none => pure ()
  | some info => do
      let canceled ← .read (fun state => state.info info)
      .update fun state =>
        { state.changeInfo info (fun info =>
            { info with
              tasks := info.tasks.map cancelPlanned
              compressedDataSize := info.compressedDataSize - plannedSize info.tasks
              serverBytesSize := 0 }) with
          cleanups := state.cleanups.eraseIdx index }
      call (.onDecompressionTaskCanceled info (plannedSize canceled.tasks) canceled.serverBytesSize)

/-- Nothing but messages refers to the info: it is in no queue, and all its tasks are
done. -/
def State.unreferenced (state : State) (info : Nat) : Bool :=
  !state.decompressionQueue.contains info && !state.cleanups.contains info
    && (state.calls.all fun call => !call.refersTo info)
    && (state.info info).tasks.all fun task =>
      task.phase == .finished || task.phase == .canceled

def destroy (index : Nat) : Session Unit := do
  let state ← .get
  .when (state.unreferenced index) do
    .update fun state => state.changeInfo index fun _ => {}
    let info := state.info index
    call (.onDecompressionInfoDestroy info.compressedDataSize info.decompressedDataSize
      info.serverBytesSize)

/-! ## Calls of the session -/

def onUserRetrievedEvent (env : Environment) (decompressedSize : Int) : Session Unit := do
  if ← .read State.aborting then pure ()
  else
    .require (decompressedSize ≤ (← .read State.decompressedDataSize)) .decompressedSizeCovers
    .update fun state =>
      { state with decompressedDataSize := state.decompressedDataSize - decompressedSize }
    continueReadingDataImpl env
    startDecompressionTasksImpl env

def onDecompressionTaskCanceled (env : Environment) (sourceSize serverBytesSize : Int) :
    Session Unit := do
  .update fun state => { state with compressedDataSize := state.compressedDataSize - sourceSize }
  if ← .read State.aborting then pure ()
  else
    returnToBudget env serverBytesSize
    continueReadingDataImpl env
    startDecompressionTasksImpl env

/-- Unlike its siblings it does not ask whether the session is aborting. -/
def onDecompressionInfoDestroy (env : Environment)
    (compressedSize decompressedSize serverBytesSize : Int) : Session Unit := do
  .update fun state =>
    { state with
      compressedDataSize := state.compressedDataSize - compressedSize
      decompressedDataSize := state.decompressedDataSize - decompressedSize }
  returnToBudget env serverBytesSize
  continueReadingDataImpl env
  startDecompressionTasksImpl env

def enter (env : Environment) (index : Nat) : Session Unit := do
  match (← .read State.calls)[index]? with
  | none => pure ()
  | some pending => do
      .update fun state => { state with calls := state.calls.eraseIdx index }
      match pending with
      | .onUserRetrievedEvent _ decompressedSize => onUserRetrievedEvent env decompressedSize
      | .onDecompressionTaskCanceled _ sourceSize serverBytesSize =>
        onDecompressionTaskCanceled env sourceSize serverBytesSize
      | .onDecompressionInfoDestroy compressedSize decompressedSize serverBytesSize =>
        onDecompressionInfoDestroy env compressedSize decompressedSize serverBytesSize

/-! ## The session -/

inductive Event where
  | onConnect
  | onInitResponse
  | reconnect (retry : Bool)
  | startPartitionSession (partitionSession : Nat)
  | stopPartitionSession (partitionSession : Nat)
  | onReadResponse (bytesSize : Nat) (partitions : List PartitionData)
  | onDataBatch (partitions : List PartitionData)
  | onDirectReadDone (partitionSession bytesSize : Nat) (data : Option PartitionData)
  | runTask (info task : Nat)
  | onDataDecompressed (info task : Nat)
  | finishTask (info task : Nat)
  | retrieve (info : Nat) (counts : List Nat)
  | drop (info : Nat) (counts : List Nat)
  | cleanup (index : Nat)
  | destroy (info : Nat)
  | enter (index : Nat)
  | stopReadingData
  | resumeReadingData
  | closeQueue (pushes : Nat)
  | close
  | abort
deriving DecidableEq

/-- A message of the server is read only on a connection, and not by a session that
aborts. -/
def onReadDone (handler : Session Unit) : Session Unit := do
  let state ← .get
  .when (state.processor && !state.aborting) handler

def react (env : Environment) : Event → Session Unit
  | .onConnect => onConnect
  | .onInitResponse => onReadDone (onInitResponse env)
  | .reconnect retry => reconnect retry
  | .startPartitionSession partitionSession => onReadDone (startPartitionSession partitionSession)
  | .stopPartitionSession partitionSession => stopPartitionSession partitionSession
  | .onReadResponse bytesSize partitions =>
    .when (!env.useMigrationProtocol) (onReadDone (onReadResponse env bytesSize partitions))
  | .onDataBatch partitions =>
    .when env.useMigrationProtocol (onReadDone (onDataBatch env partitions))
  | .onDirectReadDone partitionSession bytesSize data =>
    .when (!env.useMigrationProtocol && env.directRead)
      (onDirectReadDone env partitionSession bytesSize data)
  | .runTask info task => runTask info task
  | .onDataDecompressed info task => onDataDecompressed env info task
  | .finishTask info task => finishTask info task
  | .retrieve info counts => retrieve info counts
  | .drop info counts => drop info counts
  | .cleanup index => cleanup index
  | .destroy info => destroy info
  | .enter index => enter env index
  | .stopReadingData => .update fun state => { state with dataReadingSuspended := true }
  | .resumeReadingData => do
      .when (← .read State.dataReadingSuspended) do
        .update fun state => { state with dataReadingSuspended := false }
        continueReadingDataImpl env
  | .closeQueue pushes => .update fun state => state.closeQueue pushes
  | .close => do
      if ← .read State.aborting then pure ()
      else close
  | .abort => abortImpl

def Environment.readBufferSize (env : Environment) : Int := env.getCompressedDataSizeLimit 1

def start (env : Environment) : State := { readSizeBudget := env.readBufferSize }

end YdbSdk.Topic.ReadFlow
