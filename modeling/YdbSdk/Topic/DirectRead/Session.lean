import YdbSdk.Control.Run
import YdbSdk.Data.Assoc

namespace YdbSdk.Topic.DirectRead

open YdbSdk.Control YdbSdk.Data

/-! # Direct reading

The control session (`TSingleClusterReadSessionImpl`) is told which partition sessions to
read, and `TDirectReadSessionManager` spreads them over one `TDirectReadSession` for each
node.  A response is read by the session of its node, which puts it into a queue of its
own, and is handled later, when a deferred callback gets the lock of the control session.
-/

/-- What a direct read response carries: no batches, batches without messages (for which
the connection is broken off), data, or data for which `AddToCommitRanges` throws. -/
inductive Payload where
  | empty
  | blank
  | data
  | refused
deriving DecidableEq

/-- What the server has for each partition session and direct read id. -/
structure Environment where
  payload : Nat → Nat → Payload := fun _ _ => .data

structure Response where
  partitionSession : Nat
  directReadId : Nat
deriving DecidableEq

/-- `canceled` says that the session's context cannot be locked any more. -/
structure DirectReadSession where
  closed : Bool := false
  canceled : Bool := false
  /-- `NextDirectReadId` of each partition session. -/
  partitionSessions : Assoc Nat Nat := []
  incomingMessages : List Response := []

/-- `confirmed` is history: whether the user has confirmed the start. -/
structure PartitionStream where
  partitionSession : Nat
  location : Nat
  nextDirectReadId : Nat := 1
  lastDirectReadId : Option Nat := none
  confirmed : Bool := false
deriving DecidableEq

inductive Event where
  | start
  | data (directReadId : Nat)
  | stop
  | ended
  | closed
deriving DecidableEq

/-- Partition streams and direct read sessions are named by their position.  `manager`
says that there is a manager: the connection got its init response.  `callbacks` are the
direct read sessions for whose queue an `OnDirectReadDone` is deferred.  `pushed` is
history: what the events queue took, with the stream. -/
structure State where
  closing : Bool := false
  aborting : Bool := false
  queueClosed : Bool := false
  manager : Bool := false
  streams : List PartitionStream := []
  partitionStreams : Assoc Nat Nat := []
  sessions : List DirectReadSession := []
  nodeSessions : Assoc Nat Nat := []
  locations : Assoc Nat Nat := []
  callbacks : List Nat := []
  pushed : List (Nat × Event) := []

inductive Assertion where
  | noManager
  | managerExists
  | sessionUsable
  | partitionSessionInserted
  | nodeSessionKnown
  | partitionSessionKnown
  | directReadIdExpected

inductive Exception where
  | invalidOffsetRange

abbrev Reader := Code Exception Assertion State

def State.running (state : State) : Bool := !state.closing && !state.aborting

def State.session (state : State) (index : Nat) : DirectReadSession := state.sessions.getD index {}

def State.changeSession (state : State) (index : Nat)
    (change : DirectReadSession → DirectReadSession) : State :=
  { state with sessions := state.sessions.modify index change }

def State.changeStream (state : State) (index : Nat)
    (change : PartitionStream → PartitionStream) : State :=
  { state with streams := state.streams.modify index change }

/-! ## The manager -/

def DirectReadSession.close (session : DirectReadSession) : DirectReadSession :=
  { session with closed := true, canceled := true }

def closeManager : Reader Unit :=
  .update fun state =>
    { state with
      sessions := state.nodeSessions.foldl
        (fun sessions entry => sessions.modify entry.2 .close) state.sessions
      nodeSessions := [], locations := [], manager := false }

def nodeSession (node : Nat) : Reader Nat := do
  match (← .read State.nodeSessions).find node with
  | some index => pure index
  | none => do
      let index ← .read fun state => state.sessions.length
      .update fun state =>
        { state with
          sessions := state.sessions ++ [{}]
          nodeSessions := state.nodeSessions.insert node index }
      pure index

def addPartitionSession (index partitionSession nextDirectReadId : Nat) : Reader Unit := do
  let session ← .read fun state => state.session index
  .require (!session.closed) .sessionUsable
  .require (session.partitionSessions.find partitionSession).isNone .partitionSessionInserted
  .update fun state => state.changeSession index fun session =>
    { session with
      partitionSessions := session.partitionSessions.insert partitionSession nextDirectReadId }

/-- `emplace` leaves a location alone that is already there. -/
def rememberLocation (partitionSession node : Nat) : Reader Unit := do
  .when ((← .read State.locations).find partitionSession).isNone
    (.update fun state => { state with locations := state.locations.insert partitionSession node })

def startPartitionSession (partitionSession node nextDirectReadId : Nat) : Reader Unit := do
  let index ← nodeSession node
  .when (!(← .read fun state => state.session index).canceled)
    (addPartitionSession index partitionSession nextDirectReadId)
  rememberLocation partitionSession node

def DirectReadSession.deletePartitionSession (partitionSession : Nat) (session : DirectReadSession) :
    DirectReadSession :=
  match session.partitionSessions.find partitionSession with
  | none => session
  | some _ =>
    let partitionSessions := session.partitionSessions.erase partitionSession
    { session with partitionSessions, closed := session.closed || partitionSessions.isEmpty }

def deletePartitionSession (partitionSession node index : Nat) : Reader Unit := do
  .when (!(← .read fun state => state.session index).canceled) do
    .update fun state =>
      { state.changeSession index (.deletePartitionSession partitionSession) with
        locations := state.locations.erase partitionSession }
    .when (← .read fun state => state.session index).closed
      (.update fun state =>
        { state.changeSession index (fun session => { session with canceled := true }) with
          nodeSessions := state.nodeSessions.erase node })

def updatePartitionSession (partitionSession node : Nat) : Reader Unit := do
  let state ← .get
  match state.locations.find partitionSession with
  | none => pure ()
  | some oldNode =>
    match state.nodeSessions.find oldNode with
    | none => .stop .nodeSessionKnown
    | some index => .when (!(state.session index).canceled) do
        match (state.session index).partitionSessions.find partitionSession with
        | none => .stop .partitionSessionKnown
        | some nextDirectReadId => do
            deletePartitionSession partitionSession oldNode index
            startPartitionSession partitionSession node nextDirectReadId

def stopPartitionSession (partitionSession : Nat) : Reader Unit := do
  let state ← .get
  match state.locations.find partitionSession with
  | none => pure ()
  | some node =>
    match state.nodeSessions.find node with
    | none => pure ()
    | some index => deletePartitionSession partitionSession node index

/-! ## The control session -/

/-- The answer is whether the events queue took the event. -/
def pushEvent (stream : Nat) (event : Event) : Reader Bool := do
  if ← .read State.queueClosed then pure false
  else
    .update fun state => { state with pushed := state.pushed ++ [(stream, event)] }
    pure true

def abortImpl : Reader Unit := do
  .update fun state => { state with aborting := true }
  closeManager

def pushOrAbort (stream : Nat) (event : Event) : Reader Unit := do
  if ← pushEvent stream event then pure ()
  else abortImpl

def stopPartitionSessionImpl (stream partitionSession : Nat) (graceful : Bool) : Reader Unit := do
  .require (← .read State.manager) .noManager
  stopPartitionSession partitionSession
  if graceful then pushOrAbort stream .stop
  else
    .update fun state =>
      { state with partitionStreams := state.partitionStreams.erase partitionSession }
    pushOrAbort stream .closed

def onStartPartitionSessionRequest (partitionSession location : Nat) : Reader Unit := do
  let renewed ← match (← .read State.partitionStreams).find partitionSession with
    | none => pure true
    | some current => pushEvent current .closed
  if renewed then
    let stream ← .read fun state => state.streams.length
    .update fun state =>
      { state with
        streams := state.streams ++ [{ partitionSession, location }]
        partitionStreams := state.partitionStreams.insert partitionSession stream }
    pushOrAbort stream .start
  else abortImpl

def State.isActual (state : State) (index : Nat) (stream : PartitionStream) : Bool :=
  state.partitionStreams.find stream.partitionSession == some index

def confirmPartitionStreamCreate (index : Nat) : Reader Unit := do
  let state ← .get
  match state.streams[index]? with
  | none => pure ()
  | some stream =>
    if !state.running || !state.isActual index stream then pure ()
    else
      .update fun state => state.changeStream index fun stream => { stream with confirmed := true }
      .require state.manager .noManager
      startPartitionSession stream.partitionSession stream.location 1

def confirmPartitionStreamDestroy (index : Nat) : Reader Unit := do
  let state ← .get
  match state.streams[index]? with
  | none => pure ()
  | some stream =>
    if !state.running || !state.isActual index stream then pure ()
    else
      .update fun state =>
        { state with partitionStreams := state.partitionStreams.erase stream.partitionSession }
      pushOrAbort index .closed

def onUpdatePartitionSession (partitionSession location : Nat) : Reader Unit := do
  match (← .read State.partitionStreams).find partitionSession with
  | none => pure ()
  | some index => do
      .update fun state => state.changeStream index fun stream => { stream with location }
      updatePartitionSession partitionSession location

def State.stream (state : State) (index : Nat) : PartitionStream :=
  state.streams.getD index { partitionSession := 0, location := 0 }

def onStopPartitionSessionRequest (partitionSession : Nat) (graceful : Bool) (lastDirectReadId : Nat) :
    Reader Unit := do
  match (← .read State.partitionStreams).find partitionSession with
  | none => pure ()
  | some index =>
    if graceful then
      .update fun state => state.changeStream index fun stream =>
        { stream with lastDirectReadId := some lastDirectReadId }
      .when (lastDirectReadId ≤ (← .read fun state => state.stream index).nextDirectReadId)
        (stopPartitionSessionImpl index partitionSession true)
    else stopPartitionSessionImpl index partitionSession false

def onEndPartitionSession (partitionSession : Nat) : Reader Unit := do
  match (← .read State.partitionStreams).find partitionSession with
  | none => pure ()
  | some index => do
      stopPartitionSession partitionSession
      pushOrAbort index .ended

def onReadDoneImpl (env : Environment) (stream : Nat) (response : Response) : Reader Unit := do
  .when (← .read State.running) do
    match env.payload response.partitionSession response.directReadId with
    | .refused => .raise .invalidOffsetRange
    | .data => pushOrAbort stream (.data response.directReadId)
    | .empty | .blank => pure ()

def stopIfGotLastResponse (stream : Nat) (response : Response) : Reader Unit := do
  match (← .read fun state => state.stream stream).lastDirectReadId with
  | none => pure ()
  | some lastId =>
    .when (lastId ≤ response.directReadId + 1)
      (stopPartitionSessionImpl stream response.partitionSession true)

def onDirectReadResponseDone (env : Environment) (response : Response) : Reader Unit := do
  match (← .read State.partitionStreams).find response.partitionSession with
  | none => pure ()
  | some stream => do
      .update fun state => state.changeStream stream fun stream =>
        { stream with nextDirectReadId := response.directReadId + 1 }
      if env.payload response.partitionSession response.directReadId = .empty then
        stopIfGotLastResponse stream response
      else
        onReadDoneImpl env stream response
        stopIfGotLastResponse stream response

/-- A deferred callback takes one response of its session's queue. -/
def onDirectReadDone (env : Environment) (index : Nat) : Reader Unit := do
  match (← .read fun state => state.session index).incomingMessages with
  | [] => pure ()
  | response :: rest => do
      .update fun state => state.changeSession index fun session =>
        { session with incomingMessages := rest }
      onDirectReadResponseDone env response

/-! ## Direct read sessions -/

/-- A session reads a response.  The callback is deferred for an ignored one as well. -/
def onDirectReadResponse (index : Nat) (response : Response) : Reader Unit := do
  let session ← .read fun state => state.session index
  .when (index < (← .read fun state => state.sessions.length) && !session.closed) do
    match session.partitionSessions.find response.partitionSession with
    | none => pure ()
    | some nextDirectReadId =>
      if response.directReadId < nextDirectReadId then pure ()
      else
        .require (response.directReadId == nextDirectReadId) .directReadIdExpected
        .update fun state => state.changeSession index fun session =>
          { session with
            partitionSessions :=
              session.partitionSessions.insert response.partitionSession (nextDirectReadId + 1)
            incomingMessages := session.incomingMessages ++ [response] }
    .update fun state => { state with callbacks := state.callbacks ++ [index] }

/-! ## The session -/

inductive Input where
  | onInitResponse
  | onStartPartitionSessionRequest (partitionSession location : Nat)
  | onUpdatePartitionSession (partitionSession location : Nat)
  | onStopPartitionSessionRequest (partitionSession : Nat) (graceful : Bool) (lastDirectReadId : Nat)
  | onEndPartitionSession (partitionSession : Nat)
  | confirmPartitionStreamCreate (stream : Nat)
  | confirmPartitionStreamDestroy (stream : Nat)
  | onDirectReadResponse (session : Nat) (response : Response)
  | onDirectReadDone (callback : Nat)
  | abortDirectReadSession (session : Nat) (canceled : Bool)
  | reconnect
  | closeQueue
  | close
  | abort

def destroyAllPartitionStreamsImpl : Assoc Nat Nat → Reader Unit
  | [] => .update fun state => { state with partitionStreams := [] }
  | (_, stream) :: rest => do
      if ← pushEvent stream .closed then destroyAllPartitionStreamsImpl rest
      else abortImpl

/-- A message of the server is read only on a connection. -/
def onReadDone (handler : Reader Unit) : Reader Unit := do
  .when (← .read State.manager) handler

def react (env : Environment) : Input → Reader Unit
  | .onInitResponse => do
      .when (!(← .read State.aborting)) do
        .require (!(← .read State.manager)) .managerExists
        .update fun state => { state with manager := true }
  | .onStartPartitionSessionRequest partitionSession location =>
    onReadDone (onStartPartitionSessionRequest partitionSession location)
  | .onUpdatePartitionSession partitionSession location =>
    onReadDone (onUpdatePartitionSession partitionSession location)
  | .onStopPartitionSessionRequest partitionSession graceful lastDirectReadId =>
    onReadDone (onStopPartitionSessionRequest partitionSession graceful lastDirectReadId)
  | .onEndPartitionSession partitionSession => onReadDone (onEndPartitionSession partitionSession)
  | .confirmPartitionStreamCreate stream => confirmPartitionStreamCreate stream
  | .confirmPartitionStreamDestroy stream => confirmPartitionStreamDestroy stream
  | .onDirectReadResponse session response => onDirectReadResponse session response
  | .onDirectReadDone callback => do
      match (← .read State.callbacks)[callback]? with
      | none => pure ()
      | some index => do
          .update fun state => { state with callbacks := state.callbacks.eraseIdx callback }
          onDirectReadDone env index
  | .abortDirectReadSession session canceled =>
    .update fun state =>
      { state.changeSession session (fun session => { session with closed := true, canceled }) with
        queueClosed := true }
  | .reconnect => do
      .when (!(← .read State.aborting)) do
        closeManager
        destroyAllPartitionStreamsImpl (← .read State.partitionStreams)
  | .closeQueue => .update fun state => { state with queueClosed := true }
  | .close => .update fun state => { state with closing := true }
  | .abort => abortImpl

end YdbSdk.Topic.DirectRead
