import YdbSdk.Control.Run

namespace YdbSdk.Grpc

open YdbSdk.Control

/-! # The bidirectional stream processor

`TStreamRequestReadWriteProcessor` puts the user's reads and writes on one gRPC stream.
Every section under its mutex is one step; the callbacks a section takes out are called
right after it, and what they do are later steps.  Callbacks are named by numbers.
-/

inductive GrpcStatus where
  | ok
  | writeRequestDropped
  | writesDoneDropped
  | alreadyHalfClosed
  | clientIsShuttingDown
  | streamCancelled
  | unexpectedError
  | readEof
  | unknownStreamFailure
  /-- A failure that the server reports. -/
  | server (code : Nat)
deriving DecidableEq

inductive StreamOp where
  | write (request : Nat)
  | writesDone
deriving DecidableEq

structure WriteItem where
  callback : Option Nat
  op : StreamOp

/-- The operations posted to gRPC that have not completed. -/
structure Posted where
  connect : Bool := false
  read : Bool := false
  write : Bool := false
  finish : Bool := false

/-- `startWritesDone` says that a call of `WritesDone` has left the mutex and is about to
post.  The fields after `posted` are history: how often `Finish` was posted, the writes
that were taken in call order, those put on the stream, the callbacks the user passed and
those that were called, and whether the user was given the processor. -/
structure State where
  launched : Bool := false
  started : Bool := false
  hasInitialMetadata : Bool := false
  readActive : Bool := false
  readFinished : Bool := false
  writeActive : Bool := false
  writeFinished : Bool := false
  halfCloseRequested : Bool := false
  writeDonePending : Bool := false
  finished : Bool := false
  cancelled : Bool := false
  finishedOk : Bool := false
  status : GrpcStatus := .ok
  connectedCallback : Option Nat := none
  readCallback : Option Nat := none
  finishCallback : Option Nat := none
  finishedCallbacks : List Nat := []
  writeQueue : List WriteItem := []
  writeCallback : Option Nat := none
  startWritesDone : Bool := false
  posted : Posted := {}
  finishes : Nat := 0
  accepted : List StreamOp := []
  onStream : List StreamOp := []
  given : List Nat := []
  called : List (Nat × GrpcStatus) := []
  handed : Bool := false

inductive Assertion where
  | multipleReads
  | unexpectedReadDone
  | unexpectedReadFinished
  | unexpectedWriteDone
  | unexpectedWriteFinished
  | unexpectedReadActive

abbrev Processor := Code Empty Assertion State

def State.call (state : State) (callback : Nat) (status : GrpcStatus) : State :=
  { state with called := state.called ++ [(callback, status)] }

def call (callback : Nat) (status : GrpcStatus) : Processor Unit :=
  .update fun state => state.call callback status

def callIfAny (callback : Option Nat) (status : GrpcStatus) : Processor Unit :=
  match callback with
  | none => pure ()
  | some callback => call callback status

def give (callbacks : List Nat) : Processor Unit :=
  .update fun state => { state with given := state.given ++ callbacks }

/-! ## Operations on the stream -/

def postFinish : Processor Unit :=
  .update fun state =>
    { state with posted := { state.posted with finish := true }, finishes := state.finishes + 1 }

def postRead : Processor Unit :=
  .update fun state => { state with posted := { state.posted with read := true } }

def postWrite (op : StreamOp) : Processor Unit :=
  .update fun state =>
    { state with posted := { state.posted with write := true }, onStream := state.onStream ++ [op] }

def closeReads : Processor Unit := do
  .update fun state => { state with readFinished := true }
  .when (!(← .read State.writeActive)) (.update fun state => { state with writeFinished := true })
  .when (← .read State.writeFinished) postFinish

def closeWrites : Processor Unit := do
  .update fun state => { state with writeActive := false, writeFinished := true }
  .when (← .read State.readFinished) postFinish

/-! ## Calls of the user -/

/-- Without a context the client is shutting down. -/
def start (connected : Nat) (context : Bool) : Processor Unit := do
  give [connected]
  .update fun state => { state with launched := true }
  if context then
    .update fun state =>
      { state with
        connectedCallback := some connected
        posted := { state.posted with connect := true } }
  else call connected .clientIsShuttingDown

def cancel : Processor Unit := do
  .update fun state => { state with cancelled := true }
  let state ← .get
  .when (state.started && !(state.readFinished && state.writeFinished)) do
    .when (!state.readActive) (.update fun state => { state with readFinished := true })
    .when (!state.writeActive) (.update fun state => { state with writeFinished := true })
    let state ← .get
    .when (state.readFinished && state.writeFinished) postFinish

def accept (op : StreamOp) : Processor Unit :=
  .update fun state => { state with accepted := state.accepted ++ [op] }

def enqueue (callback : Option Nat) (op : StreamOp) : Processor Unit :=
  .update fun state => { state with writeQueue := state.writeQueue ++ [⟨callback, op⟩] }

def write (request : Nat) (callback : Option Nat) : Processor Unit := do
  give callback.toList
  let state ← .get
  if state.cancelled then callIfAny callback .writeRequestDropped
  else if state.halfCloseRequested then callIfAny callback .alreadyHalfClosed
  else if state.readFinished || state.writeFinished then callIfAny callback .writeRequestDropped
  else if state.writeActive then
    accept (.write request)
    enqueue callback (.write request)
  else
    accept (.write request)
    .update fun state => { state with writeActive := true, writeCallback := callback }
    postWrite (.write request)

def writesDone (callback : Option Nat) : Processor Unit := do
  give callback.toList
  let state ← .get
  if state.cancelled then callIfAny callback .writesDoneDropped
  else if state.halfCloseRequested then callIfAny callback .alreadyHalfClosed
  else if state.writeFinished then callIfAny callback .writesDoneDropped
  else if state.writeActive then
    accept .writesDone
    .update fun state => { state with halfCloseRequested := true }
    enqueue callback .writesDone
  else
    accept .writesDone
    .update fun state =>
      { state with
        halfCloseRequested := true
        writeActive := true
        writeDonePending := true
        writeCallback := callback
        startWritesDone := true }

/-- `WritesDone` posts outside the mutex. -/
def postWritesDone : Processor Unit := do
  .when (← .read State.startWritesDone) do
    .update fun state => { state with startWritesDone := false }
    postWrite .writesDone

def State.finishedStatus (state : State) : GrpcStatus :=
  if state.finishedOk then state.status else .unexpectedError

def GrpcStatus.orElse (status failure : GrpcStatus) : GrpcStatus :=
  if status = .ok then failure else status

def readInitialMetadata (callback : Nat) : Processor Unit := do
  give [callback]
  let state ← .get
  .require (!state.readActive) .multipleReads
  if !state.finished && !state.hasInitialMetadata then
    .update fun state => { state with readActive := true, readCallback := some callback }
    .when (!state.readFinished) postRead
  else if state.hasInitialMetadata then call callback .ok
  else call callback state.finishedStatus

def read (callback : Nat) : Processor Unit := do
  give [callback]
  let state ← .get
  .require (!state.readActive) .multipleReads
  if !state.finished then
    .update fun state => { state with readActive := true, readCallback := some callback }
    .when (!state.readFinished) postRead
  else call callback (state.finishedStatus.orElse .readEof)

def finish (callback : Nat) : Processor Unit := do
  give [callback]
  let state ← .get
  .require (!state.readActive) .multipleReads
  if !state.finished then
    .update fun state => { state with readActive := true, finishCallback := some callback }
    .when (!state.readFinished) closeReads
  else call callback state.finishedStatus

def addFinishedCallback (callback : Nat) : Processor Unit := do
  give [callback]
  let state ← .get
  if !state.finished then
    .update fun state => { state with finishedCallbacks := state.finishedCallbacks ++ [callback] }
  else if state.finishedOk then call callback state.status
  else if state.cancelled then call callback .streamCancelled
  else call callback .unexpectedError

/-! ## Completions -/

def onConnected (ok : Bool) : Processor Unit := do
  .update fun state =>
    { state with started := true, posted := { state.posted with connect := false } }
  let state ← .get
  if !ok || state.cancelled then
    .update fun state => { state with readFinished := true, writeFinished := true }
    postFinish
  else
    .update fun state => { state with connectedCallback := none, handed := true }
    callIfAny state.connectedCallback .ok

def reportRead : Processor Unit := do
  let callback ← .read State.readCallback
  .update fun state =>
    { state with readCallback := none, readActive := false, hasInitialMetadata := true }
  callIfAny callback .ok

def onReadDone (ok : Bool) : Processor Unit := do
  .update fun state => { state with posted := { state.posted with read := false } }
  let state ← .get
  .require state.readActive .unexpectedReadDone
  .require (!state.readFinished) .unexpectedReadFinished
  .when (!ok || state.cancelled) closeReads
  -- After a failure the callback is called when the stream has finished.
  .when ok reportRead

def writeNext (next : WriteItem) (rest : List WriteItem) : Processor Unit := do
  .update fun state => { state with writeCallback := next.callback, writeQueue := rest }
  match next.op with
  | .writesDone => do
      .update fun state => { state with writeDonePending := true }
      postWrite .writesDone
  | .write request => postWrite (.write request)

/-- The callback of a write that failed goes back on the queue until the stream has
finished. -/
def requeue (callback : Option Nat) (wasWritesDone : Bool) : Processor Unit :=
  match callback with
  | none => pure ()
  | some callback => .update fun state =>
    { state with
      writeCallback := none
      writeQueue :=
        ⟨some callback, if wasWritesDone then .writesDone else .write 0⟩ :: state.writeQueue }

def goOn (ok wasWritesDone : Bool) : Processor Unit := do
  let state ← .get
  if !ok || state.cancelled then closeWrites
  else if wasWritesDone then closeWrites
  else
    match state.writeQueue with
    | next :: rest => writeNext next rest
    | [] => do
        .update fun state => { state with writeActive := false }
        .when state.readFinished do
          .update fun state => { state with writeFinished := true }
          postFinish

def onWriteDone (ok : Bool) : Processor Unit := do
  .update fun state => { state with posted := { state.posted with write := false } }
  let state ← .get
  .require state.writeActive .unexpectedWriteDone
  .require (!state.writeFinished) .unexpectedWriteFinished
  .update fun state => { state with writeDonePending := false }
  if ok then .update fun state => { state with writeCallback := none }
  else requeue state.writeCallback state.writeDonePending
  goOn ok state.writeDonePending
  .when ok (callIfAny state.writeCallback .ok)

def State.closingStatus (state : State) (ok : Bool) (status : GrpcStatus) : GrpcStatus :=
  if ok then status else if state.cancelled then .streamCancelled else .unexpectedError

def callAll (callbacks : List Nat) (status : GrpcStatus) : Processor Unit :=
  .update fun state =>
    { state with called := state.called ++ callbacks.map fun callback => (callback, status) }

def finishReads (status : GrpcStatus) : Processor Unit := do
  let state ← .get
  match state.connectedCallback with
  | some connected =>
    .require (!state.readActive) .unexpectedReadActive
    .update fun state => { state with connectedCallback := none }
    call connected (status.orElse .unknownStreamFailure)
  | none =>
    .when state.readActive do
      .update fun state => { state with readActive := false }
      match state.readCallback with
      | some callback => do
          .update fun state => { state with readCallback := none }
          call callback (status.orElse .readEof)
      | none => do
          .update fun state => { state with finishCallback := none }
          callIfAny state.finishCallback status

def onFinished (ok : Bool) (serverStatus : GrpcStatus) : Processor Unit := do
  .update fun state =>
    { state with
      posted := { state.posted with finish := false }
      finished := true
      finishedOk := ok
      status := serverStatus }
  let state ← .get
  let status := state.closingStatus ok serverStatus
  .update fun state => { state with writeQueue := [], finishedCallbacks := [] }
  callAll (state.writeQueue.filterMap WriteItem.callback) (status.orElse .writeRequestDropped)
  callAll state.finishedCallbacks status
  finishReads status

/-! ## Runs -/

inductive Event where
  | start (connected : Nat) (context : Bool)
  | cancel
  | write (request : Nat) (callback : Option Nat)
  | writesDone (callback : Option Nat)
  | postWritesDone
  | readInitialMetadata (callback : Nat)
  | read (callback : Nat)
  | finish (callback : Nat)
  | addFinishedCallback (callback : Nat)
  | onConnected (ok : Bool)
  | onReadDone (ok : Bool)
  | onWriteDone (ok : Bool)
  | onFinished (ok : Bool) (serverStatus : GrpcStatus)
deriving DecidableEq

def react : Event → Processor Unit
  | .start connected context => start connected context
  | .cancel => cancel
  | .write request callback => write request callback
  | .writesDone callback => writesDone callback
  | .postWritesDone => postWritesDone
  | .readInitialMetadata callback => readInitialMetadata callback
  | .read callback => read callback
  | .finish callback => finish callback
  | .addFinishedCallback callback => addFinishedCallback callback
  | .onConnected ok => onConnected ok
  | .onReadDone ok => onReadDone ok
  | .onWriteDone ok => onWriteDone ok
  | .onFinished ok serverStatus => onFinished ok serverStatus

def State.pending (state : State) : List Nat :=
  state.connectedCallback.toList ++ state.readCallback.toList ++ state.finishCallback.toList ++
    state.finishedCallbacks ++ state.writeQueue.filterMap WriteItem.callback ++
      state.writeCallback.toList

def State.reading (state : State) : Bool :=
  state.readCallback.isSome || state.finishCallback.isSome

/-- What gRPC and the user keep to: an operation completes once and after it was posted,
the user calls a processor that the connected callback has handed over, one read-side call
at a time. -/
def Promised (state : State) : Event → Prop
  | .start _ _ => state.launched = false
  | .cancel => state.launched = true
  | .postWritesDone => state.startWritesDone = true
  | .write _ _ | .writesDone _ | .addFinishedCallback _ => state.handed = true
  | .readInitialMetadata _ | .read _ | .finish _ => state.handed = true ∧ state.reading = false
  | .onConnected _ => state.posted.connect = true
  | .onReadDone _ => state.posted.read = true
  | .onWriteDone _ => state.posted.write = true
  | .onFinished _ _ => state.posted.finish = true

instance (state : State) (event : Event) : Decidable (Promised state event) := by
  cases event <;> unfold Promised <;> infer_instance

end YdbSdk.Grpc
