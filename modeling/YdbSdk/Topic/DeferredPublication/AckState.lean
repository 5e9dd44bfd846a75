import YdbSdk.Control.Run
import YdbSdk.Data.Assoc

namespace YdbSdk.Topic.DeferredPublication

open YdbSdk.Control YdbSdk.Data

/-! # The acknowledgement state of a deferred publication

`TDeferredPublicationAckState` is shared by all write sessions that write under one
deferred publication and by the calls that publish or cancel it.  Its methods decide
under a lock which promise to resolve and resolve it after the lock is released, so a
promise may stay pending for a while: `completing` holds the decisions taken and not
yet carried out.
-/

inductive WaitStatus where
  | success
  | sessionExpired
deriving DecidableEq

inductive Fate where
  | inFlight
  | acknowledged
  | dropped
deriving DecidableEq

structure Write where
  session : Nat
  seqNo : Nat
  fate : Fate
deriving DecidableEq

/-- A call of `WaitAllAcks`: the promise whose future it returned, or `none` if it
returned a future that was resolved with success.  `issuedAt` counts the writes
accepted before. -/
structure Wait where
  promise : Option Nat
  issuedAt : Nat

/-- The state with the sessions that use it.  `writtenInDeferred` holds, for each
session, how many writes of a SeqNo are not acknowledged.  The last two fields are
history. -/
structure State where
  writeCount : Nat := 0
  ackCount : Nat := 0
  waitCalled : Bool := false
  isSealed : Bool := false
  allAcksReceived : Nat := 0
  promises : List (Option WaitStatus) := []
  completing : List (Nat × WaitStatus) := []
  writtenInDeferred : Nat → Assoc Nat Nat := fun _ => []
  aborting : Nat → Bool := fun _ => false
  writes : List Write := []
  waits : List Wait := []

inductive Assertion where
  | ackCountExceeded
  | unackedCountPositive
  | abortCountExceeded

abbrev Tracker := Code Empty Assertion State

def completeLater (status : WaitStatus) : Tracker Unit :=
  .update fun state =>
    { state with completing := state.completing ++ [(state.allAcksReceived, status)] }

def tryOnWrite : Tracker Bool := do
  if ← .read State.isSealed then pure false
  else
    .update fun state => { state with writeCount := state.writeCount + 1 }
    pure true

def onAck : Tracker Unit := do
  .update fun state => { state with ackCount := state.ackCount + 1 }
  let state ← .get
  .require (state.ackCount ≤ state.writeCount) .ackCountExceeded
  .when (state.writeCount == state.ackCount && state.waitCalled) (completeLater .success)

def onUnackedAbort (unackedCount : Nat) : Tracker Unit := do
  if unackedCount = 0 then pure ()
  else
    let state ← .get
    .require (state.ackCount + unackedCount ≤ state.writeCount) .abortCountExceeded
    .when state.waitCalled do
      completeLater .sessionExpired
      -- Failed finalize: allow subsequent Write + Publish/Cancel on this handle.
      .update fun state => { state with isSealed := false, waitCalled := false }
    .update fun state => { state with writeCount := state.writeCount - unackedCount }

def returnWait (promise : Option Nat) : Tracker Unit :=
  .update fun state =>
    { state with waits := state.waits ++ [{ promise, issuedAt := state.writes.length }] }

def State.hasValue (state : State) : Bool :=
  ((state.promises[state.allAcksReceived]?).getD none).isSome

def waitAllAcks : Tracker Unit := do
  let state ← .get
  if state.writeCount = 0 then returnWait none
  else if state.waitCalled && !state.hasValue then returnWait (some state.allAcksReceived)
  else
    .update fun state =>
      { state with
        isSealed := true, waitCalled := true
        allAcksReceived := state.promises.length
        promises := state.promises ++ [none] }
    returnWait (some state.promises.length)
    .when (state.writeCount == state.ackCount) (completeLater .success)

/-- Carry out a decision: `TrySetValue` leaves a promise with a value alone. -/
def complete (index : Nat) : Tracker Unit := do
  match (← .read State.completing)[index]? with
  | none => pure ()
  | some (promise, status) => .update fun state =>
    { state with
      completing := state.completing.eraseIdx index
      promises := state.promises.modify promise fun value => some (value.getD status) }

/-! ## The write sessions -/

def Write.dropped (session : Nat) (write : Write) : Write :=
  if write.session = session ∧ write.fate = .inFlight then { write with fate := .dropped }
  else write

/-- `CancelDeferredPublications`, when the session aborts. -/
def abort (session : Nat) : Tracker Unit := do
  if ← .read (fun state => state.aborting session) then pure ()
  else
    let unackedCount ← .read (fun state => (state.writtenInDeferred session).total)
    .update fun state =>
      { state with
        aborting := Function.update state.aborting session true
        writtenInDeferred := Function.update state.writtenInDeferred session []
        writes := state.writes.map (.dropped session) }
    onUnackedAbort unackedCount

/-- A write in the publication; one after `Publish` or `Cancel` closes the session. -/
def write (session seqNo : Nat) : Tracker Unit := do
  if ← tryOnWrite then
    .update fun state =>
      let inFlight := state.writtenInDeferred session
      { state with
        writtenInDeferred := Function.update state.writtenInDeferred session
          (inFlight.insert seqNo ((inFlight.find seqNo).getD 0 + 1))
        writes := state.writes ++ [⟨session, seqNo, .inFlight⟩] }
  else abort session

def acknowledgeFirst (session seqNo : Nat) : List Write → List Write
  | [] => []
  | write :: rest =>
    if write = ⟨session, seqNo, .inFlight⟩ then { write with fate := .acknowledged } :: rest
    else write :: acknowledgeFirst session seqNo rest

/-- `TrySignalAllAcksReceived`, for a SeqNo of the publication. -/
def acknowledge (session seqNo : Nat) : Tracker Unit := do
  match (← .read (fun state => state.writtenInDeferred session)).find seqNo with
  | none => pure ()
  | some unackedCount =>
    onAck
    .require (0 < unackedCount) .unackedCountPositive
    .update fun state =>
      let inFlight := state.writtenInDeferred session
      { state with
        writtenInDeferred := Function.update state.writtenInDeferred session
          (if unackedCount = 1 then inFlight.erase seqNo
            else inFlight.insert seqNo (unackedCount - 1))
        writes := acknowledgeFirst session seqNo state.writes }

inductive Event where
  | write (session seqNo : Nat)
  | acknowledge (session seqNo : Nat)
  | abort (session : Nat)
  | waitAllAcks
  | complete (index : Nat)
deriving DecidableEq

def react : Event → Tracker Unit
  | .write session seqNo => write session seqNo
  | .acknowledge session seqNo => acknowledge session seqNo
  | .abort session => abort session
  | .waitAllAcks => waitAllAcks
  | .complete index => complete index

abbrev Reaches (state : State) : Prop := Reachable react (fun _ _ => True) {} state

end YdbSdk.Topic.DeferredPublication
