import YdbSdk.Control.Run
import YdbSdk.Session.Common

namespace YdbSdk.Session

open YdbSdk.Control

/-! # The session pool with its clients

Every section under the lock of the pool is one step.  What happens to a session between
two such steps is recorded by the phase it is in: a session is either in the pool or held
by a user, a keep-alive action or a call that has not ended.
-/

inductive Client where
  | table
  | query
deriving DecidableEq

structure Settings where
  client : Client
  maxActiveSessions : Nat
  minPoolSize : Nat
  closeIdleThreshold : Nat

/-- Who holds a session that is not in the pool. -/
inductive Phase where
  /-- `ReplySessionToUser` is about to hand it over. -/
  | replying
  | user
  | touching
  /-- `ReturnSession` is about to enter the pool. -/
  | returning (needUpdateCounter : Bool)
  | deleting
  /-- `DeleteSession` is about to lower the active counter. -/
  | decrementing
  /-- Closed on the server and destroyed. -/
  | deleted
deriving DecidableEq

structure Holder where
  phase : Phase
  session : KqpSession

/-- `creating` counts the sessions that are being created for requests, `allocated` the
session objects.  The last two fields are history: the objects that were put into the
pool and the ids that were closed on the server. -/
structure State where
  sessions : List KqpSession := []
  waiters : List Nat := []
  activeSessions : Nat := 0
  closed : Bool := false
  creating : Nat := 0
  holders : List Holder := []
  allocated : Nat := 0
  pooled : List Nat := []
  closedOnServer : List Nat := []

inductive Assertion where
  | activeSessionsPositive
  | sessionIdle
  | sessionMarkedActive
  | sessionIdPresent

abbrev Pool := Code Empty Assertion State

/-! ## The waiters queue -/

/-- The size is computed with 32 bits. -/
def Settings.maxQueueSize (settings : Settings) : Nat :=
  settings.maxActiveSessions * 10 % 2 ^ 32

def pushWaiter (deadline : Nat) : Pool Unit :=
  .update fun state => { state with waiters := state.waiters.orderedInsert (· < ·) deadline }

def getOld (now : Nat) (waiters : List Nat) : List Nat :=
  waiters.dropWhile fun deadline => ¬ now < deadline

/-! ## The pool -/

def hold (phase : Phase) (session : KqpSession) : Pool Unit :=
  .update fun state => { state with holders := state.holders ++ [⟨phase, session⟩] }

def setHolder (index : Nat) (phase : Phase) (session : KqpSession) : Pool Unit :=
  .update fun state => { state with holders := state.holders.set index ⟨phase, session⟩ }

def replyNewSession : Pool Unit :=
  .update fun state => { state with creating := state.creating + 1 }

def incrementActiveCounterUnsafe : Pool Unit :=
  .update fun state => { state with activeSessions := state.activeSessions + 1 }

def decrementActiveCounter : Pool Unit := do
  .require (0 < (← .read State.activeSessions)) .activeSessionsPositive
  .update fun state => { state with activeSessions := state.activeSessions - 1 }

inductive SessionSource where
  | pool
  | waiter
  | error
deriving DecidableEq

def Settings.sessionSource (settings : Settings) (state : State) : SessionSource :=
  if settings.maxActiveSessions = 0 ∨ state.activeSessions < settings.maxActiveSessions then .pool
  else if state.waiters.length < settings.maxQueueSize then .waiter
  else .error

def takeLast : Pool (Option KqpSession) := do
  match (← .read State.sessions).getLast? with
  | none => pure none
  | some session =>
    .update fun state => { state with sessions := state.sessions.dropLast }
    pure (some (session.updateServerCloseHandler false))

def getSession (settings : Settings) (deadline : Nat) : Pool Unit := do
  let source ← .read settings.sessionSource
  match source with
  | .pool => incrementActiveCounterUnsafe
  | .waiter => pushWaiter deadline
  | .error => pure ()
  let sessionImpl ← takeLast
  match source, sessionImpl with
  | .pool, some session => hold .replying session
  | .pool, none => replyNewSession
  -- The request waits or is refused, and `sessionImpl` is destroyed with the call.
  | .waiter, _ => pure ()
  | .error, _ => pure ()

def replySessionToUser (index : Nat) : Pool Unit := do
  match (← .read State.holders)[index]? with
  | some ⟨.replying, session⟩ =>
    .require (session.state = .idle) .sessionIdle
    match session.markActive with
    | none => .stop .sessionMarkedActive
    | some active => setHolder index .user (active.setNeedUpdateActiveCounter true)
  | _ => pure ()

def checkAndFeedWaiterNewSession (active : Bool) : Pool Bool := do
  let state ← .get
  if state.closed then pure false
  else
    match state.waiters with
    | [] => pure false
    | _ :: rest =>
      .update fun state => { state with waiters := rest }
      -- A session closed during keep-alive feeds the waiter with an error.
      .when active replyNewSession
      pure true

def clearOldWaiters (now : Nat) : Pool Unit :=
  .update fun state => { state with waiters := getOld now state.waiters }

def emplace (index : Nat) (session : KqpSession) : Pool Unit :=
  .update fun state =>
    { state with
      sessions := state.sessions.orderedInsert
        (fun first second => first.timeToTouch < second.timeToTouch) session
      holders := state.holders.eraseIdx index
      pooled := state.pooled ++ [session.pointer] }

def poolReturnSession (index : Nat) (impl : KqpSession) (active : Bool) : Pool Bool := do
  let state ← .get
  if state.closed then pure false
  else if !impl.canReturnToPool then pure false
  else
    match state.waiters with
    | _ :: rest =>
      .update fun state => { state with waiters := rest }
      setHolder index .replying (impl.updateServerCloseHandler false)
      .when (!active) incrementActiveCounterUnsafe
      pure true
    | [] =>
      let registered := impl.updateServerCloseHandler true
      if active then
        emplace index (registered.setNeedUpdateActiveCounter false)
        decrementActiveCounter
      else emplace index registered
      pure true

/-! ## The periodic task -/

def periodicActionBatchSize : Nat := 10

def Settings.deletePredicate (settings : Settings) (session : KqpSession) (sessionsCount : Nat) :
    Bool :=
  settings.closeIdleThreshold ≤ session.timeToTouch - session.timeInPast &&
    settings.minPoolSize < sessionsCount

/-- The pool of the table client touches idle sessions. -/
def Settings.hasKeepAliveCmd (settings : Settings) : Bool := settings.client = .table

structure Sorted where
  kept : List KqpSession
  toTouch : List KqpSession
  toDelete : List KqpSession

def sortOut (settings : Settings) (now : Nat) : (count size : Nat) → List KqpSession → Sorted
  | _, _, [] => ⟨[], [], []⟩
  | 0, _, sessions => ⟨sessions, [], []⟩
  | count + 1, size, session :: rest =>
    if now < session.timeToTouch then ⟨session :: rest, [], []⟩
    else if settings.deletePredicate session size then
      let sorted := sortOut settings now count (size - 1) rest
      { sorted with toDelete := session.updateServerCloseHandler false :: sorted.toDelete }
    else if settings.hasKeepAliveCmd then
      let sorted := sortOut settings now count (size - 1) rest
      { sorted with toTouch := session.updateServerCloseHandler false :: sorted.toTouch }
    else
      let sorted := sortOut settings now count size rest
      { sorted with kept := session :: sorted.kept }

def isIdle (session : KqpSession) : Bool := session.state = .idle

def periodicTask (settings : Settings) (now : Nat) : Pool Unit := do
  let state ← .get
  let sorted := sortOut settings now periodicActionBatchSize state.sessions.length state.sessions
  .update fun state =>
    { state with
      sessions := sorted.kept
      waiters := getOld now state.waiters
      holders := state.holders ++ sorted.toTouch.map (⟨.touching, ·⟩) ++
        sorted.toDelete.map fun session => ⟨.deleting, session.markBroken⟩ }
  .require (sorted.toTouch.all isIdle && sorted.toDelete.all isIdle) .sessionIdle
  .require (sorted.toTouch.all fun session => session.id.isSome) .sessionIdPresent

/-! ## A close by the server -/

inductive Target where
  | pooled (index : Nat)
  | held (index : Nat)
deriving DecidableEq

def State.target (state : State) : Target → Option KqpSession
  | .pooled index => state.sessions[index]?
  | .held index => state.holders[index]?.map Holder.session

def sameEntry (first second : KqpSession) : Bool :=
  first.timeToTouch = second.timeToTouch && first.id = second.id

def onCloseSession (session : KqpSession) : Pool Unit := do
  match (← .read State.sessions).find? (sameEntry session) with
  | none => pure ()
  | some found =>
    .update fun state =>
      { state with
        sessions := state.sessions.eraseP (sameEntry session)
        holders := state.holders ++ [⟨.deleting, found.markBroken⟩] }
    .require (isIdle found) .sessionIdle

def closeFromServer (target : Target) : Pool Unit := do
  match (← .get).target target with
  | none => pure ()
  | some session => .when session.closeHandler (onCloseSession session)

def shutDown (target : Target) : Pool Unit :=
  match target with
  | .pooled index => .update fun state =>
    { state with sessions := state.sessions.modify index .markAsClosing }
  | .held index => .update fun state =>
    { state with
      holders := state.holders.modify index fun holder =>
        { holder with session := holder.session.markAsClosing } }

/-! ## The clients -/

/-- The request of a client that closes a session; a session that was not created has
no id. -/
def closeInternal (session : KqpSession) : Pool Unit :=
  .update fun state => { state with closedOnServer := state.closedOnServer ++ session.id.toList }

def destroy (index : Nat) (session : KqpSession) : Pool Unit := do
  closeInternal session
  setHolder index .deleted session

def deleteSession (index : Nat) : Pool Unit := do
  match (← .read State.holders)[index]? with
  | some ⟨.deleting, session⟩ =>
    let fed ← if session.isOwnedBySessionPool
      then checkAndFeedWaiterNewSession session.needUpdateActiveCounter else pure false
    -- The session that is created for the waiter takes over the place.
    let session := if fed then session.setNeedUpdateActiveCounter false else session
    if session.needUpdateActiveCounter then setHolder index .decrementing session
    else destroy index session
  | _ => pure ()

def finishDeleteSession (index : Nat) : Pool Unit := do
  match (← .read State.holders)[index]? with
  | some ⟨.decrementing, session⟩ =>
    decrementActiveCounter
    destroy index session
  | _ => pure ()

/-- What the clients do before the pool takes a session back.  The table client may close
it to move it to another node. -/
def Client.returnSession (client : Client) (migrate : Bool) (session : KqpSession) : Holder :=
  match client with
  | .table =>
    if migrate then ⟨.deleting, session⟩
    else ⟨.returning session.needUpdateActiveCounter, session.markIdle.getD session⟩
  | .query =>
    match session.markIdle with
    | none => ⟨.deleting, session⟩
    | some idle => ⟨.returning session.needUpdateActiveCounter, idle⟩

def smartDeleter (client : Client) (migrate : Bool) (session : KqpSession) : Holder :=
  match session.state with
  | .standalone => ⟨.deleting, session⟩
  | .broken => ⟨.deleting, session⟩
  | .closing => ⟨.deleting, session⟩
  | .idle => client.returnSession migrate session
  | .active => client.returnSession migrate session

def release (settings : Settings) (index : Nat) (migrate : Bool) : Pool Unit := do
  match (← .read State.holders)[index]? with
  | some ⟨.user, session⟩ =>
    let holder := smartDeleter settings.client migrate session
    setHolder index holder.phase holder.session
  | some ⟨.touching, session⟩ =>
    let holder := smartDeleter settings.client migrate session
    setHolder index holder.phase holder.session
  | _ => pure ()

def returnSession (index : Nat) : Pool Unit := do
  match (← .read State.holders)[index]? with
  | some ⟨.returning needUpdateCounter, session⟩ =>
    if ← poolReturnSession index session needUpdateCounter then pure ()
    else setHolder index .deleting (session.setNeedUpdateActiveCounter needUpdateCounter)
  | _ => pure ()

def allocate (id : Option Nat) (owned : Bool) (now : Nat) : Pool KqpSession := do
  let pointer ← .read State.allocated
  .update fun state => { state with allocated := state.allocated + 1 }
  pure { pointer, id, isOwnedBySessionPool := owned, timeToTouch := now, timeInPast := now }

/-- The creation of a session for a request has ended.  The table client repeats it after
some failures and drops the session that was not created. -/
def created (settings : Settings) (id : Option Nat) (retry : Bool) (now : Nat) : Pool Unit := do
  if (← .read State.creating) = 0 then pure ()
  else
    let session ← allocate id true now
    let session := match id with
      | some _ => session.markActive.getD session
      | none => session.markBroken
    if settings.client = .table && id.isNone && retry then hold .deleting session
    else
      .update fun state => { state with creating := state.creating - 1 }
      hold .user (session.setNeedUpdateActiveCounter true)

/-- The table client creates a session that the pool does not own. -/
def createSession (id : Option Nat) (now : Nat) : Pool Unit := do
  let session ← allocate id false now
  match id with
  | some _ => hold .user session
  | none => hold .user session.markBroken

def drain : Pool Unit :=
  .update fun state =>
    { state with
      closed := true
      sessions := []
      waiters := []
      holders := state.holders ++ state.sessions.map (⟨.deleted, ·⟩)
      closedOnServer := state.closedOnServer ++ state.sessions.filterMap KqpSession.id }

def onRequest (index : Nat) (effect : KqpSession → KqpSession) : Pool Unit := do
  match (← .read State.holders)[index]? with
  | some ⟨.user, session⟩ => setHolder index .user (effect session)
  | some ⟨.touching, session⟩ => setHolder index .touching (effect session)
  | _ => pure ()

/-! ## The steps -/

inductive Event where
  | getSession (deadline : Nat)
  | replySessionToUser (index : Nat)
  | created (id : Option Nat) (retry : Bool) (now : Nat)
  | createSession (id : Option Nat) (now : Nat)
  | markBroken (index : Nat)
  | scheduleTimeToTouch (index time : Nat) (past : Option Nat)
  | shutDown (target : Target)
  | closeFromServer (target : Target)
  | release (index : Nat) (migrate : Bool)
  | returnSession (index : Nat)
  | deleteSession (index : Nat)
  | finishDeleteSession (index : Nat)
  | periodicTask (now : Nat)
  | clearOldWaiters (now : Nat)
  | drain
deriving DecidableEq

def react (settings : Settings) : Event → Pool Unit
  | .getSession deadline => getSession settings deadline
  | .replySessionToUser index => replySessionToUser index
  | .created id retry now => created settings id retry now
  | .createSession id now => .when (settings.client = .table) (createSession id now)
  | .markBroken index => onRequest index .markBroken
  | .scheduleTimeToTouch index time past =>
    onRequest index fun session => session.scheduleTimeToTouch time past
  | .shutDown target => shutDown target
  | .closeFromServer target => closeFromServer target
  | .release index migrate => release settings index migrate
  | .returnSession index => returnSession index
  | .deleteSession index => deleteSession index
  | .finishDeleteSession index => finishDeleteSession index
  | .periodicTask now => periodicTask settings now
  | .clearOldWaiters now => clearOldWaiters now
  | .drain => .when (settings.client = .table) drain

abbrev Reaches (settings : Settings) (permitted : State → Event → Prop) (state : State) : Prop :=
  Reachable (react settings) permitted {} state

end YdbSdk.Session
