import YdbSdk.Control.Run
import YdbSdk.Data.Assoc

namespace YdbSdk.Coordination

open YdbSdk.Control YdbSdk.Data

/-! # The coordination session

`TSessionContext` keeps one session with the coordination service over a sequence of
connections.  Every section under its lock is one step.  Time is left open: a deadline that
is set may have passed.
-/

inductive Status where
  | success
  | sessionExpired
  | unauthorized
  | notFound
  | clientCancelled
  | clientInternalError
  | unavailable
  | timeout
  | aborted
  | other (code : Nat)
deriving DecidableEq

inductive SessionState where
  | attached
  | detached
  | expired
deriving DecidableEq

inductive ConnectionState where
  | disconnected
  | connecting
  | attaching
  | connected
  | stopped
deriving DecidableEq

/-- A promise is named by the call that made it. -/
inductive OpPromise where
  | semaphore (name : String) (number : Nat)
  | request (number : Nat)
deriving DecidableEq

inductive OpType where
  | acquire
  | release
deriving DecidableEq

/-- An operation has no `reqId` before it is sent. -/
structure SemaphoreOp where
  number : Nat
  opType : OpType
  reqId : Nat := 0
deriving DecidableEq

/-- `waitingOps` has the operations under their own `reqId`. -/
structure SemaphoreState where
  lastSentOp : Option SemaphoreOp := none
  lastAckedOp : Option SemaphoreOp := none
  waitingOps : List SemaphoreOp := []
  opQueue : List SemaphoreOp := []
  restoring : Bool := false

inductive SimpleKind where
  | ping
  | describe (onChanged watchData watchOwners : Bool)
  | create
  | update
  | delete
deriving DecidableEq

structure SimpleOp where
  number : Nat
  kind : SimpleKind

structure Settings where
  connectTimeout : Bool := true
  timeout : Bool := true

/-- Where the session's one chain of callbacks is: before its start, about to connect, waiting
for the connection, connected, waiting for a response, waiting for the end of the stream,
about to process the status of a connection that has ended, about to sleep, asleep, at its
end. -/
inductive Phase where
  | created
  | waking
  | connecting
  | connected
  | reading
  | finishing
  | failing (status : Status)
  | rescheduling
  | sleeping
  | stopped
deriving DecidableEq

/-- A context is named by a number.  `promises` are the promises that are still in their
operations.  The fields after it are history: the promises made and the values set, the
operations that got a `reqId`, the pending notices of this connection, the watches that
changed, the acquires accepted, the futures that `Reconnect` returned and those completed,
the values set on the close promise, and whether the user was given the session. -/
structure State where
  settings : Settings := {}
  phase : Phase := .created
  localContext : Bool := false
  sessionPromise : Bool := true
  sessionState : SessionState := .detached
  connectionState : ConnectionState := .disconnected
  currentFailure : Option Status := none
  closedPromise : Bool := false
  connectContext : Option Nat := none
  connectTimeoutContext : Option Nat := none
  semaphores : Assoc String SemaphoreState := []
  semaphoreByReqId : Assoc Nat String := []
  pendingRequests : List SimpleOp := []
  sentRequests : Assoc Nat SimpleOp := []
  reconnectPromise : Option Nat := none
  sessionStartTimeoutContext : Option Nat := none
  sessionSelfPingContext : Option Nat := none
  sessionSelfPingReqId : Nat := 0
  sessionTimeout : Bool := false
  sleepContext : Bool := false
  sessionExpireDeadline : Bool := false
  processor : Bool := false
  sessionId : Nat := 0
  nextReqId : Nat := 1
  isStopping : Bool := false
  nextContext : Nat := 0
  nextNumber : Nat := 0
  promises : List OpPromise := []
  given : List OpPromise := []
  results : List (OpPromise × Status × Bool) := []
  numbered : List (String × SemaphoreOp) := []
  noticed : List Nat := []
  changes : List (Nat × Bool) := []
  accepted : List Nat := []
  reconnects : List Nat := []
  reconnected : List Nat := []
  closed : List Status := []
  handed : Bool := false

inductive Assertion where
  | noContext
  | notDetached
  | alreadyAttached
  | notAttaching
  | noProcessor
  | noClosedPromise
  | writeNotAllowed
  | noReqId
  | alreadyWaiting
  | waitingOpsDesync
  | unexpectedPending
  | emptyPromise
  | failureIsSet
  | multipleSleeps
  | missingSleepContext
  | noConnectContext
  | noSessionId

abbrev Session := Code Empty Assertion State

def State.isClosed (state : State) : Bool := state.isStopping || state.closedPromise

def State.isWriteAllowed (state : State) : Bool :=
  state.processor && state.sessionState = .attached && state.connectionState = .connected

def State.semaphore (state : State) (name : String) : SemaphoreState :=
  (state.semaphores.find name).getD {}

def SemaphoreState.isEmpty (sem : SemaphoreState) : Bool :=
  sem.lastSentOp.isNone && sem.lastAckedOp.isNone && sem.waitingOps.isEmpty && sem.opQueue.isEmpty

def SemaphoreState.waiting (sem : SemaphoreState) (reqId : Nat) : Option SemaphoreOp :=
  sem.waitingOps.find? (·.reqId = reqId)

def setSemaphore (name : String) (sem : SemaphoreState) : Session Unit :=
  .update fun state => { state with semaphores := state.semaphores.insert name sem }

/-! ## Promises -/

def makePromise (promiseOf : Nat → OpPromise) : Session Nat := do
  let number ← .read State.nextNumber
  .update fun state =>
    { state with
      nextNumber := state.nextNumber + 1
      promises := state.promises ++ [promiseOf state.nextNumber]
      given := state.given ++ [promiseOf state.nextNumber] }
  return number

def State.fulfil (state : State) (promise : OpPromise) (status : Status) (value : Bool) : State :=
  { state with
    promises := state.promises.erase promise
    results := state.results ++ [(promise, status, value)] }

/-- A promise is taken out of its operation and set; one that was taken before is empty. -/
def fulfilIfAny (promise : OpPromise) (status : Status) (value : Bool) : Session Unit := do
  .when (decide (promise ∈ (← .read State.promises)))
    (.update fun state => state.fulfil promise status value)

def fulfil (promise : OpPromise) (status : Status) (value : Bool) : Session Unit := do
  .require (decide (promise ∈ (← .read State.promises))) .emptyPromise
  .update fun state => state.fulfil promise status value

def makeClosedResult (promiseOf : Nat → OpPromise) : Session Unit :=
  .update fun state =>
    { state with
      nextNumber := state.nextNumber + 1
      given := state.given ++ [promiseOf state.nextNumber]
      results := state.results ++
        [(promiseOf state.nextNumber, state.currentFailure.getD .clientCancelled, false)] }

def setCurrentFailure (status : Status) : Session Unit := do
  .require (← .read State.currentFailure).isNone .failureIsSet
  .update fun state => { state with currentFailure := some status }

def setCurrentFailureIfNone (status : Status) : Session Unit := do
  .when (← .read State.currentFailure).isNone (setCurrentFailure status)

def newContext : Session Nat := do
  let context ← .read State.nextContext
  .update fun state => { state with nextContext := context + 1 }
  return context

/-! ## Semaphore operations -/

def doSemaphoreSendOp (name : String) (op : SemaphoreOp) : Session Unit := do
  let state ← .get
  let sem := state.semaphore name
  .require state.isWriteAllowed .writeNotAllowed
  .require (decide (0 < op.reqId)) .noReqId
  .require (sem.waiting op.reqId).isNone .alreadyWaiting
  .update fun state =>
    { state with semaphoreByReqId := state.semaphoreByReqId.insert op.reqId name }
  setSemaphore name { sem with waitingOps := op :: sem.waitingOps, lastSentOp := some op }

def doSemaphoreProcessQueue (name : String) : Session Unit := do
  let state ← .get
  let sem := state.semaphore name
  match sem.opQueue with
  | [] => pure ()
  | op :: rest =>
    .when (sem.lastSentOp.isNone && state.isWriteAllowed) do
      let op := { op with reqId := state.nextReqId }
      setSemaphore name { sem with opQueue := rest }
      .update fun state =>
        { state with
          nextReqId := state.nextReqId + 1
          numbered := state.numbered ++ [(name, op)] }
      doSemaphoreSendOp name op

def doSemaphoreEnqueueOp (name : String) (op : SemaphoreOp) : Session Unit := do
  let sem := (← .get).semaphore name
  setSemaphore name { sem with opQueue := sem.opQueue ++ [op] }
  doSemaphoreProcessQueue name

/-- The last acknowledged operation that was not sent again is superseded. -/
def supersede (name : String) (op : SemaphoreOp) : Session Unit := do
  let sem := (← .get).semaphore name
  match sem.lastAckedOp with
  | none => pure ()
  | some acked =>
    .when (sem.restoring && acked ≠ op)
      (fulfilIfAny (.semaphore name acked.number) .aborted false)

/-- The result of the last operation sent, which came without a pending notice. -/
def settleLastSent (name : String) (op : SemaphoreOp) (isError : Bool) : Session Unit := do
  let sem := (← .get).semaphore name
  setSemaphore name { sem with lastSentOp := none }
  .when (sem.lastAckedOp = some op || !isError) do
    supersede name op
    setSemaphore name { (← .get).semaphore name with lastAckedOp := none }
  let sem := (← .get).semaphore name
  match sem.restoring, sem.lastAckedOp with
  | true, some acked =>
    -- An unconfirmed operation failed: the last confirmed one is tried again.
    .when (← .get).isWriteAllowed (doSemaphoreSendOp name acked)
  | _, _ => doSemaphoreProcessQueue name

/-- The operation is not the last one any more. -/
def settleOp (name : String) (op : SemaphoreOp) (isError : Bool) : Session Unit := do
  let sem := (← .get).semaphore name
  if sem.lastSentOp = some op then settleLastSent name op isError
  else
    .when (sem.lastAckedOp = some op)
      -- The result came after a pending notice.
      (setSemaphore name { sem with lastAckedOp := none })

def reportOp (name : String) (op : SemaphoreOp) (status : Status) (value : Bool) : Session Unit := do
  setSemaphore name { (← .get).semaphore name with restoring := false }
  fulfilIfAny (.semaphore name op.number) status value
  .when ((← .get).semaphore name).isEmpty
    (.update fun state => { state with semaphores := state.semaphores.erase name })

def doSemaphoreProcessResult (reqId : Nat) (opType : OpType) (status : Status) (value : Bool) :
    Session Unit := do
  match (← .read State.semaphoreByReqId).find reqId with
  | none => pure ()
  | some name => do
      let sem := (← .get).semaphore name
      match sem.waiting reqId with
      | none => .stop .waitingOpsDesync
      | some op => do
          setSemaphore name
            { sem with waitingOps := sem.waitingOps.filter (fun other => other.reqId ≠ reqId) }
          .update fun state =>
            { state with semaphoreByReqId := state.semaphoreByReqId.erase reqId }
          .when (op.opType = opType) do
            settleOp name op (status ≠ .success)
            reportOp name op status value

def acquireSemaphorePending (reqId : Nat) : Session Unit := do
  .update fun state => { state with noticed := state.noticed ++ [reqId] }
  match (← .read State.semaphoreByReqId).find reqId with
  | none => pure ()
  | some name => do
      match ((← .get).semaphore name).lastSentOp with
      | none => .stop .unexpectedPending
      | some op => do
          .require (op.reqId = reqId && op.opType = .acquire) .unexpectedPending
          supersede name op
          .when (((← .get).semaphore name).lastAckedOp ≠ some op && op.number ∉ (← .get).accepted)
            (.update fun state => { state with accepted := state.accepted ++ [op.number] })
          setSemaphore name
            { (← .get).semaphore name with
              lastAckedOp := some op
              lastSentOp := none
              restoring := false }
          doSemaphoreProcessQueue name

/-! ## Simple operations -/

def doSendSimpleOp (op : SimpleOp) : Session Nat := do
  let state ← .get
  .require state.isWriteAllowed .writeNotAllowed
  .update fun state =>
    { state with
      nextReqId := state.nextReqId + 1
      sentRequests := state.sentRequests.insert state.nextReqId op }
  return state.nextReqId

/-- The calls of `Ping`, `DescribeSemaphore`, `CreateSemaphore`, `UpdateSemaphore` and
`DeleteSemaphore`. -/
def doSimpleOp (kind : SimpleKind) : Session Unit := do
  let state ← .get
  if state.isClosed then makeClosedResult .request
  else
    let op : SimpleOp := ⟨← makePromise .request, kind⟩
    if state.isWriteAllowed then Functor.discard (doSendSimpleOp op)
    else .update fun state => { state with pendingRequests := state.pendingRequests ++ [op] }

def doPing : Session Unit := doSimpleOp .ping

def doDescribeSemaphore (onChanged watchData watchOwners : Bool) : Session Unit :=
  doSimpleOp (.describe onChanged watchData watchOwners)

def doCreateSemaphore : Session Unit := doSimpleOp .create

def doUpdateSemaphore : Session Unit := doSimpleOp .update

def doDeleteSemaphore : Session Unit := doSimpleOp .delete

def SimpleKind.isDescribe : SimpleKind → Bool
  | .describe _ _ _ => true
  | _ => false

def State.findSentRequest (state : State) (reqId : Nat) (wanted : SimpleKind → Bool) : Option SimpleOp :=
  (state.sentRequests.find reqId).filter fun op => wanted op.kind

/-- The answer to a request of a kind; a watch that was added stays. -/
def simpleResult (reqId : Nat) (wanted : SimpleKind → Bool) (watchAdded : Bool) (status : Status) :
    Session Unit := do
  match (← .get).findSentRequest reqId wanted with
  | none => pure ()
  | some op => do
      .when (!watchAdded)
        (.update fun state => { state with sentRequests := state.sentRequests.erase reqId })
      fulfilIfAny (.request op.number) status false

def pong (reqId : Nat) : Session Unit := simpleResult reqId (· = .ping) false .success

def describeSemaphoreResult (reqId : Nat) (status : Status) (watchAdded : Bool) : Session Unit :=
  simpleResult reqId SimpleKind.isDescribe watchAdded status

def createSemaphoreResult (reqId : Nat) (status : Status) : Session Unit :=
  simpleResult reqId (· = .create) false status

def updateSemaphoreResult (reqId : Nat) (status : Status) : Session Unit :=
  simpleResult reqId (· = .update) false status

def deleteSemaphoreResult (reqId : Nat) (status : Status) : Session Unit :=
  simpleResult reqId (· = .delete) false status

def notify (op : SimpleOp) (dataChanged ownersChanged : Bool) : Session Unit :=
  match op.kind with
  | .describe true watchData watchOwners => .update fun state =>
    { state with
      changes := state.changes ++
        [(op.number, watchData && dataChanged || watchOwners && ownersChanged)] }
  | _ => pure ()

def describeSemaphoreChanged (reqId : Nat) (dataChanged ownersChanged : Bool) : Session Unit := do
  match (← .get).findSentRequest reqId SimpleKind.isDescribe with
  | none => pure ()
  | some op => do
      .update fun state => { state with sentRequests := state.sentRequests.erase reqId }
      notify op dataChanged ownersChanged

/-- `SetFailure`: a watch whose first answer has come ends without a change. -/
def setFailure (status : Status) (op : SimpleOp) : Session Unit := do
  if op.kind.isDescribe && .request op.number ∉ (← .read State.promises) then notify op false false
  else fulfil (.request op.number) status false

/-! ## Calls of the user -/

def doAcquireRelease (name : String) (opType : OpType) : Session Unit := do
  if (← .get).isClosed then makeClosedResult (.semaphore name)
  else
    let number ← makePromise (.semaphore name)
    doSemaphoreEnqueueOp name ⟨number, opType, 0⟩

def doAcquireSemaphore (name : String) : Session Unit := doAcquireRelease name .acquire

def doReleaseSemaphore (name : String) : Session Unit := doAcquireRelease name .release

def sendCloseRequest : Session Unit := do
  .require (← .read State.processor) .noProcessor
  .require (← .read State.closedPromise) .noClosedPromise

def doClose (isAbort : Bool) : Session Unit := do
  let state ← .get
  .when (!state.closedPromise) do
    .update fun state => { state with closedPromise := true }
    .when state.isWriteAllowed sendCloseRequest
  .when isAbort do
    .update fun state => { state with isStopping := true }
    setCurrentFailureIfNone .unavailable

def doReconnect : Session Unit := do
  let state ← .get
  if state.isClosed then
    .update fun state =>
      { state with
        nextNumber := state.nextNumber + 1
        reconnects := state.reconnects ++ [state.nextNumber]
        reconnected := state.reconnected ++ [state.nextNumber] }
  else
    .when state.reconnectPromise.isNone
      (.update fun state =>
        { state with
          nextNumber := state.nextNumber + 1
          reconnectPromise := some state.nextNumber
          reconnects := state.reconnects ++ [state.nextNumber] })

def stop : Session Unit := do
  .update fun state => { state with isStopping := true }
  setCurrentFailureIfNone .clientCancelled

/-! ## Connections -/

/-- Without a context the client is stopped. -/
def start (context : Bool) : Session Unit :=
  if context then
    .update fun state =>
      { state with localContext := true, connectionState := .connecting, phase := .waking }
  else .update fun state => { state with sessionPromise := false }

def doConnectRequest : Session Unit := do
  let connectContext ← newContext
  .update fun state => { state with connectContext := some connectContext, phase := .connecting }
  if (← .read State.settings).connectTimeout then
    let timeoutContext ← newContext
    .update fun state => { state with connectTimeoutContext := some timeoutContext }
  else .update fun state => { state with connectTimeoutContext := none }

def onConnectTimeout (context : Nat) : Session Unit := do
  let state ← .get
  .when (state.connectTimeoutContext = some context) do
    .update fun state => { state with connectTimeoutContext := none }
    .require state.connectContext.isSome .noConnectContext
    .update fun state => { state with connectContext := none, sessionTimeout := true }
    setCurrentFailureIfNone .timeout

/-- The first section of `OnConnect`. -/
def onConnect (status : Status) : Session Unit := do
  let state ← .get
  .update fun state => { state with connectTimeoutContext := none, connectContext := none }
  if state.sessionTimeout then .update fun state => { state with phase := .failing .timeout }
  else if status ≠ .success then .update fun state => { state with phase := .failing status }
  else .update fun state => { state with phase := .connected }

/-- The second section of `OnConnect`; the promise of `Reconnect` is set after it. -/
def onConnected : Session Unit := do
  .update fun state =>
    { state with
      processor := true
      connectionState := .attaching
      phase := .reading
      reconnected := state.reconnected ++ state.reconnectPromise.toList
      reconnectPromise := none }
  .when (← .read State.settings).timeout do
    .require (← .read State.localContext) .noContext
    let context ← newContext
    .update fun state => { state with sessionStartTimeoutContext := some context }

def onSessionStartTimeout (context : Nat) : Session Unit := do
  .when ((← .get).sessionStartTimeoutContext = some context) do
    .update fun state => { state with sessionStartTimeoutContext := none, sessionTimeout := true }
    setCurrentFailureIfNone .timeout

def restoreSemaphore (name : String) : Session Unit := do
  let sem := (← .get).semaphore name
  match sem.lastSentOp, sem.lastAckedOp with
  | some op, _ | none, some op => do
      doSemaphoreSendOp name op
      setSemaphore name { (← .get).semaphore name with restoring := true }
  | none, none => do
      setSemaphore name { sem with restoring := false }
      doSemaphoreProcessQueue name

def resumeOperations : Session Unit := do
  .forEach ((← .read State.semaphores).map Prod.fst) restoreSemaphore
  .forEach (← .read State.pendingRequests) fun op => Functor.discard (doSendSimpleOp op)
  .update fun state => { state with pendingRequests := [] }

def sessionAttached : Session Unit := do
  let state ← .get
  .require (state.sessionState ≠ .attached) .alreadyAttached
  .require (state.connectionState = .attaching) .notAttaching
  .update fun state =>
    { state with
      sessionState := .attached
      connectionState := .connected
      sessionExpireDeadline := false }
  .when state.closedPromise sendCloseRequest
  .when (!state.isStopping) resumeOperations

def startSelfPing : Session Unit := do
  let state ← .get
  .when (state.settings.timeout && state.sessionSelfPingContext.isNone) do
    .require state.localContext .noContext
    let context ← newContext
    .update fun state => { state with sessionSelfPingContext := some context }

def sessionStarted (sessionId : Nat) : Session Unit := do
  .require (decide (0 < sessionId)) .noSessionId
  .update fun state =>
    { state with
      sessionId := sessionId
      handed := state.handed || state.sessionPromise
      sessionPromise := false
      sessionStartTimeoutContext := none }
  sessionAttached
  startSelfPing

/-- `busy` says that the session has enough activity of its own. -/
def onSelfPingTimer (context : Nat) (busy : Bool) : Session Unit := do
  let state ← .get
  .when (state.sessionSelfPingContext = some context) do
    if !state.isWriteAllowed then
      .update fun state => { state with sessionSelfPingContext := none }
    else if (state.findSentRequest state.sessionSelfPingReqId (· = .ping)).isSome then
      .update fun state => { state with sessionSelfPingContext := none, sessionTimeout := true }
      setCurrentFailureIfNone .timeout
    else
      .when (!busy) do
        let number ← makePromise .request
        let reqId ← doSendSimpleOp ⟨number, .ping⟩
        .update fun state => { state with sessionSelfPingReqId := reqId }

def Status.isFatal : Status → Bool
  | .sessionExpired | .unauthorized | .notFound => true
  | _ => false

def State.expire (state : State) : State :=
  if state.sessionId ≠ 0 then { state with sessionState := .expired } else state

def State.detach (state : State) : State :=
  if state.sessionState = .attached then { state with sessionState := .detached } else state

def failure (status : Status) : Session Unit := do
  .when status.isFatal
    (.update fun state => { state with isStopping := true }.expire)
  .update .detach
  setCurrentFailureIfNone status
  .update fun state => { state with phase := .finishing }

def sessionStopped : Session Unit := do
  .update fun state => { state with isStopping := true, closedPromise := true }
  setCurrentFailureIfNone .sessionExpired
  .update .expire
  .require ((← .get).sessionState ≠ .attached) .notDetached
  .update fun state => { state with phase := .finishing }

/-- A read that fails: `HandleSessionDetach` and the status to report. -/
def onReadFailed (status : Status) : Session Unit :=
  .update fun state =>
    { state with
      sessionStartTimeoutContext := none
      sessionSelfPingContext := none
      phase := .failing (if state.sessionTimeout then .timeout else status) }.detach

def onFinish (status : Status) : Session Unit :=
  .update fun state => { state with phase := .failing status }

/-! ## The end of a connection -/

/-- Operations that were acknowledged and are not sent again when the session goes on. -/
def SemaphoreState.aborted (sem : SemaphoreState) : List SemaphoreOp :=
  sem.waitingOps.filter fun op => some op ≠ sem.lastSentOp && some op ≠ sem.lastAckedOp

/-- All operations, when the session is at its end: those that wait, then the last
acknowledged and the last sent one unless they wait, then the queue. -/
def SemaphoreState.failed (sem : SemaphoreState) : List SemaphoreOp :=
  let sent := sem.lastSentOp.filter (· ∉ sem.waitingOps)
  let acked := sem.lastAckedOp.filter (· ∉ sem.waitingOps)
  sem.waitingOps ++ (acked.filter (some · ≠ sent)).toList ++ sent.toList ++ sem.opQueue

def State.semaphorePromises (state : State) (ops : SemaphoreState → List SemaphoreOp) :
    List OpPromise :=
  state.semaphores.flatMap fun (name, sem) => (ops sem).map fun op => .semaphore name op.number

def State.stops (state : State) (deadlinePassed : Bool) : Bool :=
  state.isStopping || state.sessionPromise || state.sessionTimeout ||
    (state.sessionExpireDeadline && deadlinePassed)

def State.reported (state : State) (status : Status) : Status :=
  let status := state.currentFailure.getD status
  if status = .success then .clientInternalError else status

def failOperations (promises : List OpPromise) (semaphoreStatus : Status) (requests : List SimpleOp)
    (status : Status) : Session Unit := do
  .forEach promises fun promise => fulfil promise semaphoreStatus false
  .forEach requests (setFailure status)

/-- The session stops.  The promise of `Reconnect` is taken out and not set. -/
def stopSession (status : Status) : Session Unit := do
  let state ← .get
  .update fun state =>
    { state with
      sessionPromise := false
      localContext := false
      isStopping := true
      connectionState := .stopped
      closedPromise := true
      reconnectPromise := none
      sessionTimeout := state.sessionTimeout || !(state.isStopping || state.sessionPromise)
      semaphores := []
      semaphoreByReqId := []
      sentRequests := []
      pendingRequests := []
      phase := .stopped }
  .update fun state =>
    if state.sessionId ≠ 0 && state.sessionTimeout then { state with sessionState := .expired }
    else state
  failOperations (state.semaphorePromises SemaphoreState.failed) status
    (state.sentRequests.map Prod.snd ++ state.pendingRequests) status
  let closing := if state.sessionState = .expired then .success else status
  .update fun state => { state with closed := state.closed ++ [closing] }

def disconnect (status : Status) : Session Unit := do
  let state ← .get
  .update fun state =>
    { state with
      sessionExpireDeadline := true
      connectionState := .disconnected
      currentFailure := none
      semaphores := state.semaphores.map fun (name, sem) => (name, { sem with waitingOps := [] })
      semaphoreByReqId := []
      sentRequests := []
      noticed := []
      phase := .rescheduling }
  failOperations (state.semaphorePromises SemaphoreState.aborted) .aborted
    (state.sentRequests.map Prod.snd) status

/-- `OnProcessorStatus` up to its second section. -/
def onProcessorStatus (status : Status) (deadlinePassed : Bool) : Session Unit := do
  .update fun state => { state with processor := false }
  let state ← .get
  .require state.localContext .noContext
  .require (state.sessionState ≠ .attached) .notDetached
  if state.stops deadlinePassed then stopSession (state.reported status)
  else disconnect (state.reported status)

/-- The second section of `OnProcessorStatus`. -/
def reschedule : Session Unit := do
  .require (!(← .read State.sleepContext)) .multipleSleeps
  .update fun state => { state with sleepContext := true, phase := .sleeping }

def onSleepFinished : Session Unit := do
  let state ← .get
  .update fun state => { state with sleepContext := false }
  .require state.sleepContext .missingSleepContext
  if state.isStopping then .update fun state => { state with phase := .failing .clientInternalError }
  else
    .update fun state => { state with connectionState := .connecting, phase := .waking }
    .require state.localContext .noContext

/-! ## Runs -/

inductive Response where
  | pong (reqId : Nat)
  | failure (status : Status)
  | sessionStarted (sessionId : Nat)
  | sessionStopped
  | acquireSemaphorePending (reqId : Nat)
  | acquireSemaphoreResult (reqId : Nat) (status : Status) (acquired : Bool)
  | releaseSemaphoreResult (reqId : Nat) (status : Status) (released : Bool)
  | describeSemaphoreResult (reqId : Nat) (status : Status) (watchAdded : Bool)
  | describeSemaphoreChanged (reqId : Nat) (dataChanged ownersChanged : Bool)
  | createSemaphoreResult (reqId : Nat) (status : Status)
  | updateSemaphoreResult (reqId : Nat) (status : Status)
  | deleteSemaphoreResult (reqId : Nat) (status : Status)
deriving DecidableEq

def processResponse : Response → Session Unit
  | .pong reqId => pong reqId
  | .failure status => failure status
  | .sessionStarted sessionId => sessionStarted sessionId
  | .sessionStopped => sessionStopped
  | .acquireSemaphorePending reqId => acquireSemaphorePending reqId
  | .acquireSemaphoreResult reqId status acquired =>
    doSemaphoreProcessResult reqId .acquire status acquired
  | .releaseSemaphoreResult reqId status released =>
    doSemaphoreProcessResult reqId .release status released
  | .describeSemaphoreResult reqId status watchAdded =>
    describeSemaphoreResult reqId status watchAdded
  | .describeSemaphoreChanged reqId dataChanged ownersChanged =>
    describeSemaphoreChanged reqId dataChanged ownersChanged
  | .createSemaphoreResult reqId status => createSemaphoreResult reqId status
  | .updateSemaphoreResult reqId status => updateSemaphoreResult reqId status
  | .deleteSemaphoreResult reqId status => deleteSemaphoreResult reqId status

def onRead (response : Response) : Session Unit := do
  .require (← .read State.processor) .noProcessor
  processResponse response

inductive Event where
  | start (context : Bool)
  | stop
  | close (isAbort : Bool)
  | reconnect
  | acquireSemaphore (name : String)
  | releaseSemaphore (name : String)
  | ping
  | describeSemaphore (onChanged watchData watchOwners : Bool)
  | createSemaphore
  | updateSemaphore
  | deleteSemaphore
  | connectRequest
  | connectTimeout (context : Nat)
  | connect (status : Status)
  | connected
  | sessionStartTimeout (context : Nat)
  | selfPingTimer (context : Nat) (busy : Bool)
  | read (response : Response)
  | readFailed (status : Status)
  | finish (status : Status)
  | processorStatus (status : Status) (deadlinePassed : Bool)
  | reschedule
  | sleepFinished
deriving DecidableEq

def react : Event → Session Unit
  | .start context => start context
  | .stop => stop
  | .close isAbort => doClose isAbort
  | .reconnect => doReconnect
  | .acquireSemaphore name => doAcquireSemaphore name
  | .releaseSemaphore name => doReleaseSemaphore name
  | .ping => doPing
  | .describeSemaphore onChanged watchData watchOwners =>
    doDescribeSemaphore onChanged watchData watchOwners
  | .createSemaphore => doCreateSemaphore
  | .updateSemaphore => doUpdateSemaphore
  | .deleteSemaphore => doDeleteSemaphore
  | .connectRequest => doConnectRequest
  | .connectTimeout context => onConnectTimeout context
  | .connect status => onConnect status
  | .connected => onConnected
  | .sessionStartTimeout context => onSessionStartTimeout context
  | .selfPingTimer context busy => onSelfPingTimer context busy
  | .read response => onRead response
  | .readFailed status => onReadFailed status
  | .finish status => onFinish status
  | .processorStatus status deadlinePassed => onProcessorStatus status deadlinePassed
  | .reschedule => reschedule
  | .sleepFinished => onSleepFinished

def State.waitingType (state : State) (reqId : Nat) : Option OpType := do
  let name ← state.semaphoreByReqId.find reqId
  let op ← (state.semaphore name).waiting reqId
  return op.opType

/-- What the service keeps to: the start of a session is answered once on a connection and
with an id, a semaphore request is answered as what it was, with one pending notice at most,
and a watch changes after it was added. -/
def Answers (state : State) : Response → Prop
  | .sessionStarted sessionId => 0 < sessionId ∧ state.connectionState = .attaching
  | .acquireSemaphorePending reqId =>
    reqId ∉ state.noticed ∧ state.waitingType reqId ≠ some .release
  | .acquireSemaphoreResult reqId _ _ => state.waitingType reqId ≠ some .release
  | .releaseSemaphoreResult reqId _ _ => state.waitingType reqId ≠ some .acquire
  | .describeSemaphoreChanged reqId _ _ =>
    ∀ op ∈ state.findSentRequest reqId SimpleKind.isDescribe,
      .request op.number ∉ state.promises
  | _ => True

/-- The callbacks of a connection follow each other; the user calls a session that was handed
over. -/
def Promised (state : State) : Event → Prop
  | .start _ => state.phase = .created ∧ state.sessionPromise = true
  | .stop => state.phase ≠ .created
  | .close _ | .reconnect | .acquireSemaphore _ | .releaseSemaphore _ | .ping
  | .describeSemaphore _ _ _ | .createSemaphore | .updateSemaphore | .deleteSemaphore =>
    state.handed = true
  | .connectRequest => state.phase = .waking
  | .connectTimeout _ | .sessionStartTimeout _ | .selfPingTimer _ _ => True
  | .connect _ => state.phase = .connecting
  | .connected => state.phase = .connected
  | .read response => state.phase = .reading ∧ Answers state response
  | .readFailed _ => state.phase = .reading
  | .finish _ => state.phase = .finishing
  | .processorStatus status _ => state.phase = .failing status
  | .reschedule => state.phase = .rescheduling
  | .sleepFinished => state.phase = .sleeping

instance (state : State) (response : Response) : Decidable (Answers state response) := by
  cases response <;> unfold Answers <;> infer_instance

instance (state : State) (event : Event) : Decidable (Promised state event) := by
  cases event <;> unfold Promised <;> infer_instance

end YdbSdk.Coordination
