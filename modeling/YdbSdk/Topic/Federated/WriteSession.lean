import YdbSdk.Control.Run
import YdbSdk.Topic.Federated.Databases

namespace YdbSdk.Topic.Federated.WriteSession

open YdbSdk.Control

/-! # The federated write session

`TFederatedWriteSessionImpl` keeps the messages of the user in two queues, those passed
down to the subsession and not acknowledged and those still to be passed down, and opens
a new subsession when another database is chosen.  A locked section is one step; what its
thread does after it has released the lock is a list of `Work`, done step by step.
-/

/-- A `std::string_view`: the string it points into, and its length. -/
structure View where
  address : Nat
  size : Nat
deriving DecidableEq

structure DeferredPublication where
  intPublicationId : Nat := 0
  extPublicationId : Option String := none
deriving DecidableEq

structure Options where
  codec : Option Nat := none
  originalSize : Nat := 0
  seqNo : Option Nat := none
  createTimestamp : Option Nat := none
  messageMeta : List (String × String) := []
deriving DecidableEq

/-- `TWriteMessage`; a message with a transaction is refused before it gets here. -/
structure WriteMessage where
  data : View
  options : Options := {}
  deferredPublication : Option DeferredPublication := none
deriving DecidableEq

/-- `TWrappedWriteMessage`.  `address` is where its string `data` lives. -/
structure WrappedWriteMessage where
  address : Nat
  data : List UInt8
  message : WriteMessage
  flushPromise : Option Nat := none

def WriteMessage.wrap (message : WriteMessage) (data : List UInt8) (address : Nat) :
    WrappedWriteMessage :=
  { address, data, message := { message with data := ⟨address, data.length⟩ } }

/-- The move constructor.  `Data` is constant, so it is copied, and the view follows it. -/
def WrappedWriteMessage.moved (other : WrappedWriteMessage) (address : Nat) :
    WrappedWriteMessage :=
  { other with address, message := { other.message with data := ⟨address, other.data.length⟩ } }

/-- The message that a subsession's `Write` leaves behind: the deferred publication was
moved out of it. -/
def WriteMessage.taken (message : WriteMessage) : WriteMessage :=
  { message with deferredPublication := message.deferredPublication.map fun _ => {} }

inductive SessionState where
  | created
  | working
  | closing
  | closed
deriving DecidableEq

structure Content where
  data : List UInt8
  options : Options

/-- A subsession as the session and the assumptions on it see it: how many messages were
acknowledged to the user when it was opened, what it received, how many acknowledgements
it gave, and whether it has issued a token that is not used. -/
structure Subsession where
  opened : Nat
  received : List Content := []
  acknowledged : Nat := 0
  token : Bool := false

inductive ClientEvent where
  | readyToAccept
  | acks (count : Nat)
deriving DecidableEq

/-- What a thread does after it has released the lock; `finishClose` is the second locked
section of `Close`. -/
inductive Work where
  | issueTokenIfAllowed
  | pushToken
  | pushAcks (count : Nat)
  | closeQueue
  | subscribe
  | finishClose
deriving DecidableEq

inductive FlushFuture where
  | made (value : Bool)
  | promised (promise : Nat)

structure Settings extends SelectSettings where
  maxMemoryUsage : Nat := 0
  /-- Whether the retry policy grants one more retry. -/
  retryPolicy : Nat → EStatus → Bool := fun _ _ => true

def i64 (value : Int) : Int := value.bmod (2 ^ 64)

/-- Subsessions are named by their position among all that were opened; the generation in
the handlers of one is its position plus one.  `retryState` counts the retries of the
current retry state.  `messageQueuesHaveBeenEmptied` says whether the promise has its
value, once there is one.  The fields from `tokensHeld` on are history. -/
structure State where
  sessionState : SessionState := .created
  retryState : Option Nat := none
  updateScheduled : Bool := false
  currentDatabase : Option DbInfo := none
  subsessionGeneration : Nat := 0
  subsession : Option Nat := none
  pendingToken : Bool := false
  clientHasToken : Bool := false
  toPassDown : List WrappedWriteMessage := []
  toGetAck : List WrappedWriteMessage := []
  bufferFreeSpace : Int
  messageQueuesHaveBeenEmptied : Option Bool := none
  hasBeenClosed : Bool := false
  events : List ClientEvent := []
  queueClosed : Bool := false
  nextAddress : Nat := 0
  nextPromise : Nat := 0
  flushed : List (Nat × Bool) := []
  threads : List (List Work) := []
  tokensHeld : Nat := 0
  accepted : List Content := []
  acknowledged : Nat := 0
  subsessions : List Subsession := []
  flushes : List FlushFuture := []

def start (settings : Settings) : State := { bufferFreeSpace := i64 settings.maxMemoryUsage }

/-- `danglingView` stands for reading a string that does not live any more, `noSubsession`
and `emptyQueue` for following a null pointer and taking from an empty queue. -/
inductive Assertion where
  | continuationTokenRequired
  | acksExceedMessages
  | noDatabases
  | unreachable
  | danglingView
  | noSubsession
  | emptyQueue

abbrev Writer := Code Empty Assertion State

/-! ## Messages -/

/-- The bytes a view shows, if its string lives in one of the queues. -/
def State.bytes (state : State) (view : View) : Option (List UInt8) :=
  ((state.toGetAck ++ state.toPassDown).find? fun message => message.address = view.address).map
    fun message => message.data.take view.size

def State.messageQueuesAreEmptyImpl (state : State) : Bool :=
  state.toGetAck.isEmpty && state.toPassDown.isEmpty

/-- What `CompleteFlush` of each message posts. -/
def completions (value : Bool) (messages : List WrappedWriteMessage) : List (Nat × Bool) :=
  messages.filterMap fun message => message.flushPromise.map fun promise => (promise, value)

def completeFlush (messages : List WrappedWriteMessage) : List WrappedWriteMessage :=
  messages.map fun message => { message with flushPromise := none }

def goOn (works : List Work) : Writer Unit :=
  .update fun state => { state with threads := state.threads ++ [works] }

def writeToSubsession : Writer Unit := do
  let state ← .get
  match state.subsession, state.toGetAck.getLast? with
  | none, _ => .stop .noSubsession
  | some _, none => .stop .emptyQueue
  | some index, some back =>
    match state.bytes back.message.data with
    | none => .stop .danglingView
    | some bytes =>
      .update fun state =>
        { state with
          toGetAck := state.toGetAck.dropLast ++ [{ back with message := back.message.taken }]
          subsessions := state.subsessions.modify index fun subsession =>
            { subsession with
              received := subsession.received ++ [⟨bytes, back.message.options⟩]
              token := false } }

def maybeWriteImpl : Writer Unit := do
  let state ← .get
  match state.pendingToken, state.toPassDown with
  | true, front :: rest => do
      .update fun state =>
        { state with
          toGetAck := state.toGetAck ++ [front.moved state.nextAddress]
          toPassDown := rest
          nextAddress := state.nextAddress + 1 }
      writeToSubsession
      .update fun state => { state with pendingToken := false }
  | _, _ => pure ()

/-! ## Closing -/

/-- The events queue of the client is closed while the lock is released; no caller does
anything after that. -/
def closeImpl : Writer Unit := do
  let state ← .get
  if state.sessionState = .closed then pure ()
  else do
    .update fun state =>
      { state with
        sessionState := .closed
        flushed := state.flushed ++ completions false state.toPassDown ++
          completions false state.toGetAck
        toPassDown := completeFlush state.toPassDown
        toGetAck := completeFlush state.toGetAck
        hasBeenClosed := true }
    goOn [.closeQueue]

/-- The first locked section of `Close`; the thread then waits. -/
def close : Writer Unit := do
  let state ← .get
  if state.sessionState = .closed then pure ()
  else do
    .update fun state =>
      { state with
        sessionState := .closing
        messageQueuesHaveBeenEmptied :=
          some (state.messageQueuesHaveBeenEmptied.getD state.messageQueuesAreEmptyImpl) }
    goOn [.finishClose]

/-! ## Switching to another database -/

def moveAll (address : Nat) (messages : List WrappedWriteMessage) : List WrappedWriteMessage :=
  (messages.zipIdx address).map fun entry => entry.1.moved entry.2

/-- The messages not passed down are moved behind those not acknowledged, and the queue of
both, which keeps its elements in place, takes the place of the first. -/
def openSubsessionImpl (db : DbInfo) : Writer Unit :=
  .update fun state =>
    { state with
      subsessionGeneration := state.subsessionGeneration + 1
      pendingToken := state.pendingToken && state.subsession.isNone
      toPassDown := state.toGetAck ++ moveAll state.nextAddress state.toPassDown
      toGetAck := []
      nextAddress := state.nextAddress + state.toPassDown.length
      subsession := some state.subsessions.length
      subsessions := state.subsessions ++ [{ opened := state.acknowledged }]
      currentDatabase := some db }

/-- `hasContext` says whether the connections gave a context to wait with. -/
def scheduleFederationStateUpdateImpl (hasContext : Bool) : Writer Unit :=
  if hasContext then .update fun state => { state with updateScheduled := true }
  else closeImpl

variable (settings : Settings)

/-- No database can be chosen: ask the retry policy. -/
def retryOrClose (status : EStatus) (hasContext : Bool) : Writer Unit := do
  let retries ← .read fun state => state.retryState.getD 0
  .update fun state => { state with retryState := some (retries + 1) }
  if settings.retryPolicy retries status then scheduleFederationStateUpdateImpl hasContext
  else closeImpl

def onFederationStateUpdateImpl (federationState : FederatedDbState) (hasContext : Bool) :
    Writer Unit := do
  if federationState.status = .success then do
    .require (!federationState.dbInfos.isEmpty) .noDatabases
    match selectDatabaseImpl settings.toSelectSettings federationState.dbInfos
      federationState.selfLocation with
    | .failed status => retryOrClose settings status hasContext
    | .unreachable => .stop .unreachable
    | .database preferrableDb => do
        .update fun state => { state with retryState := none }
        let state ← .get
        .when (!databasesAreSame preferrableDb state.currentDatabase)
          (openSubsessionImpl preferrableDb)
        scheduleFederationStateUpdateImpl hasContext
  else closeImpl

/-- A callback that was subscribed or scheduled; `federationState` is the observer's. -/
def updateFederationState (federationState : FederatedDbState) (hasContext : Bool) :
    Writer Unit := do
  .update fun state => { state with updateScheduled := false }
  let state ← .get
  if state.sessionState = .closed then pure ()
  else onFederationStateUpdateImpl settings federationState hasContext

omit settings

/-! ## Handlers of a subsession -/

def readyToAcceptHandler (index : Nat) : Writer Unit := do
  let state ← .get
  .when (index + 1 = state.subsessionGeneration) do
    .require (!state.pendingToken) .continuationTokenRequired
    .update fun state => { state with pendingToken := true }
    maybeWriteImpl

/-- One turn of the loop over the acknowledgements; the destructor of the message completes
its flush. -/
def popAcknowledged : Writer Unit := do
  let state ← .get
  match state.toGetAck with
  | [] => .stop .emptyQueue
  | front :: rest =>
    .update fun state =>
      { state with
        bufferFreeSpace := i64 (state.bufferFreeSpace + front.data.length)
        toGetAck := rest
        flushed := state.flushed ++ completions true [front]
        acknowledged := state.acknowledged + 1 }

def acksHandler (index count : Nat) : Writer Unit := do
  let state ← .get
  .when (index + 1 = state.subsessionGeneration) do
    .require (count ≤ state.toGetAck.length) .acksExceedMessages
    .forEach (.range count) fun _ => popAcknowledged
    .update fun state =>
      { state with
        messageQueuesHaveBeenEmptied := state.messageQueuesHaveBeenEmptied.map fun emptied =>
          emptied || state.messageQueuesAreEmptyImpl }
    goOn [.pushAcks count, .issueTokenIfAllowed]

def sessionClosedHandler (index : Nat) (isSuccess : Bool) : Writer Unit := do
  let state ← .get
  .when (!isSuccess && index + 1 = state.subsessionGeneration) closeImpl

/-! ## The user -/

/-- The caller has wrapped the message in a temporary, from which it is moved to the queue. -/
def writeInternal (data : List UInt8) (message : WriteMessage) (now : Nat) : Writer Unit := do
  let address ← .read State.nextAddress
  let wrapped := message.wrap data address
  let options := { wrapped.message.options with
    createTimestamp := some (wrapped.message.options.createTimestamp.getD now) }
  let wrapped := { wrapped with message := { wrapped.message with options } }
  .update fun state =>
    { state with
      clientHasToken := false
      bufferFreeSpace := i64 (state.bufferFreeSpace - wrapped.message.data.size)
      toPassDown := state.toPassDown ++ [wrapped.moved (address + 1)]
      nextAddress := address + 2
      accepted := state.accepted ++ [⟨data, options⟩] }
  maybeWriteImpl
  goOn [.issueTokenIfAllowed]

/-- The last message of the queues gets a flush promise, unless it has one. -/
def promiseFlush (queue : List WrappedWriteMessage) (promise : Nat) :
    List WrappedWriteMessage × Nat :=
  match queue.getLast? with
  | none => (queue, promise)
  | some last =>
    (queue.dropLast ++ [{ last with flushPromise := some (last.flushPromise.getD promise) }],
      last.flushPromise.getD promise)

def State.answerFlush (state : State) (future : FlushFuture) : State :=
  { state with flushes := state.flushes ++ [future] }

def flush : Writer Unit := do
  let state ← .get
  if state.sessionState = .closed then .update fun state => state.answerFlush (.made false)
  else if !state.toPassDown.isEmpty then do
    let (queue, promise) := promiseFlush state.toPassDown state.nextPromise
    .update fun state =>
      { state.answerFlush (.promised promise) with
        toPassDown := queue, nextPromise := state.nextPromise + 1 }
  else if !state.toGetAck.isEmpty then do
    let (queue, promise) := promiseFlush state.toGetAck state.nextPromise
    .update fun state =>
      { state.answerFlush (.promised promise) with
        toGetAck := queue, nextPromise := state.nextPromise + 1 }
  else .update fun state => state.answerFlush (.made true)

def startSession : Writer Unit := do
  let state ← .get
  if state.sessionState = .created then do
    .update fun state => { state with sessionState := .working }
    goOn [.issueTokenIfAllowed, .subscribe]
  else pure ()

/-- The user takes an event from the queue, or a handler of the user is called with it. -/
def getEvent : Writer Unit :=
  .update fun state =>
    match state.events with
    | [] => state
    | .readyToAccept :: rest => { state with events := rest, tokensHeld := state.tokensHeld + 1 }
    | .acks _ :: rest => { state with events := rest }

/-! ## Work outside the lock -/

def pushEvent (event : ClientEvent) : Writer Unit := do
  let state ← .get
  .when (!state.queueClosed)
    (.update fun state => { state with events := state.events ++ [event] })

def issueTokenIfAllowed : Writer (List Work) := do
  let state ← .get
  if 0 < state.bufferFreeSpace ∧ state.clientHasToken = false ∧
      (state.sessionState = .created ∨ state.sessionState = .working) then do
    .update fun state => { state with clientHasToken := true }
    pure [.pushToken]
  else pure []

/-- Do one piece of work; the answer is what comes next in this thread. -/
def perform : Work → Writer (List Work)
  | .issueTokenIfAllowed => issueTokenIfAllowed
  | .pushToken => do
      pushEvent .readyToAccept
      pure []
  | .pushAcks count => do
      pushEvent (.acks count)
      pure []
  | .closeQueue => do
      .update fun state => { state with queueClosed := true }
      pure []
  | .subscribe => do
      .update fun state => { state with updateScheduled := true }
      pure []
  | .finishClose => do
      closeImpl
      pure []

def resume (thread : Nat) : Writer Unit := do
  let state ← .get
  match state.threads[thread]? with
  | some (work :: _) => do
      .update fun state => { state with threads := state.threads.modify thread .tail }
      let next ← perform work
      .update fun state => { state with threads := state.threads.modify thread (next ++ ·) }
  | _ => pure ()

/-! ## Runs -/

inductive Event where
  | start
  | write (data : List UInt8) (message : WriteMessage) (now : Nat)
  | flush
  | close
  | getEvent
  | updateFederationState (federationState : FederatedDbState) (hasContext : Bool)
  | readyToAccept (index : Nat)
  | acks (index count : Nat)
  | sessionClosed (index : Nat) (isSuccess : Bool)
  | resume (thread : Nat)
deriving DecidableEq

def issueToken (index : Nat) : Writer Unit :=
  .update fun state =>
    { state with
      subsessions := state.subsessions.modify index fun subsession =>
        { subsession with token := true } }

def acknowledge (index count : Nat) : Writer Unit :=
  .update fun state =>
    { state with
      subsessions := state.subsessions.modify index fun subsession =>
        { subsession with acknowledged := subsession.acknowledged + count } }

def react (settings : Settings) : Event → Writer Unit
  | .start => startSession
  | .write data message now => do
      .update fun state => { state with tokensHeld := state.tokensHeld - 1 }
      writeInternal data message now
  | .flush => flush
  | .close => close
  | .getEvent => getEvent
  | .updateFederationState federationState hasContext =>
    updateFederationState settings federationState hasContext
  | .readyToAccept index => do
      issueToken index
      readyToAcceptHandler index
  | .acks index count => do
      acknowledge index count
      acksHandler index count
  | .sessionClosed index isSuccess => sessionClosedHandler index isSuccess
  | .resume thread => resume thread

/-- A user writes with a token it holds.  A subsession issues a token only after the one
before was used, and acknowledges messages that it received, each once.  An update runs
only if it was subscribed or scheduled. -/
def Permitted (state : State) : Event → Prop
  | .write _ _ _ => 0 < state.tokensHeld
  | .updateFederationState _ _ => state.updateScheduled = true
  | .readyToAccept index => ∃ subsession ∈ state.subsessions[index]?, subsession.token = false
  | .acks index count => ∃ subsession ∈ state.subsessions[index]?,
      subsession.acknowledged + count ≤ subsession.received.length
  | .sessionClosed index _ => index < state.subsessions.length
  | _ => True

instance (state : State) (event : Event) : Decidable (Permitted state event) := by
  unfold Permitted
  split <;> infer_instance

end YdbSdk.Topic.Federated.WriteSession
