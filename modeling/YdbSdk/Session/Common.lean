import Mathlib

namespace YdbSdk.Session

/-! # Sessions

The part of `TKqpSessionCommon` that the session pool and the clients work with.  A
session object is told apart by its address; its server id is absent when the session
could not be created.
-/

inductive EState where
  | standalone
  | idle
  | broken
  | active
  | closing
deriving DecidableEq

/-- `closeHandler` tells whether the pool is registered as the handler of a close by
the server. -/
structure KqpSession where
  pointer : Nat
  id : Option Nat
  isOwnedBySessionPool : Bool
  state : EState := .standalone
  closeRequested : Bool := false
  timeToTouch : Nat := 0
  timeInPast : Nat := 0
  closeHandler : Bool := false
  needUpdateActiveCounter : Bool := false

namespace KqpSession

def setNeedUpdateActiveCounter (session : KqpSession) (flag : Bool) : KqpSession :=
  { session with needUpdateActiveCounter := flag }

def updateServerCloseHandler (session : KqpSession) (handler : Bool) : KqpSession :=
  { session with closeHandler := handler }

def markBroken (session : KqpSession) : KqpSession :=
  { session with
    needUpdateActiveCounter := session.state = .active || session.needUpdateActiveCounter
    state := .broken }

def markAsClosing (session : KqpSession) : KqpSession :=
  if session.closeRequested || session.state = .broken then session
  -- Idle sessions may already be selected for checkout, so their state stays.
  else if session.state = .idle then { session with closeRequested := true }
  else
    { session with
      closeRequested := true
      needUpdateActiveCounter := session.state = .active || session.needUpdateActiveCounter
      state := .closing }

/-- No session if the state does not allow it. -/
def markActive (session : KqpSession) : Option KqpSession :=
  if session.state = .broken || session.state = .closing then none
  else some { session with state := .active, needUpdateActiveCounter := false }

/-- No session if the state does not allow it; the session is left as it is then. -/
def markIdle (session : KqpSession) : Option KqpSession :=
  if session.closeRequested || session.state = .broken then none
  else some { session with state := .idle, needUpdateActiveCounter := false }

def canReturnToPool (session : KqpSession) : Bool :=
  session.state = .idle && !session.closeRequested

def scheduleTimeToTouch (session : KqpSession) (time : Nat) (past : Option Nat) : KqpSession :=
  { session with timeToTouch := time, timeInPast := past.getD session.timeInPast }

def SameObject (before after : KqpSession) : Prop :=
  after.pointer = before.pointer ∧ after.id = before.id ∧
    after.isOwnedBySessionPool = before.isOwnedBySessionPool

theorem markAsClosing_sameObject (session : KqpSession) :
    SameObject session session.markAsClosing := by
  unfold markAsClosing
  split
  · exact ⟨rfl, rfl, rfl⟩
  · split <;> exact ⟨rfl, rfl, rfl⟩

theorem markIdle_eq {session : KqpSession} (marked : session.markIdle = some idle) :
    idle = { session with state := .idle, needUpdateActiveCounter := false } := by
  unfold markIdle at marked
  split at marked
  · cases marked
  · exact (Option.some.inj marked).symm

end KqpSession

end YdbSdk.Session
