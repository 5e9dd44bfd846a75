import YdbSdk.Data.Multimap
import YdbSdk.Session.Moves

namespace YdbSdk.Session

open YdbSdk.Control YdbSdk.Data Code List

/-! # The requests for sessions

A ledger is kept beside a run of the pool: the requests that were answered, and how, and
those that wait.  When a request queues up, a clean-up of the queue is scheduled for its
deadline.
-/

variable {settings : Settings} {state : State} {event : Event} {deadline : Nat}

inductive Reply where
  | sessionToUser
  | newSession
  | error
deriving DecidableEq

/-- `waiting` holds the deadlines and the numbers of the requests in the order of the queue,
`cleanups` the deadlines for which `ClearOldWaiters` is still to run. -/
structure Ledger where
  given : Nat := 0
  answered : List (Nat × Reply) := []
  waiting : List (Nat × Nat) := []
  cleanups : List Nat := []

def State.oldWaiters (state : State) (now : Nat) : Nat :=
  state.waiters.length - (getOld now state.waiters).length

/-- How many requests a section takes out of the queue if they are there, and what they
are answered after it. -/
def Settings.feeds (settings : Settings) (state : State) : Event → Nat × Reply
  | .returnSession index =>
    match state.holders[index]? with
    | some ⟨.returning _, session⟩ =>
      (if !state.closed && session.canReturnToPool then 1 else 0, .sessionToUser)
    | _ => (0, .error)
  | .deleteSession index =>
    match state.holders[index]? with
    | some ⟨.deleting, session⟩ =>
      (if session.isOwnedBySessionPool && !state.closed then 1 else 0,
        if session.needUpdateActiveCounter then .newSession else .error)
    | _ => (0, .error)
  | .periodicTask now => (state.oldWaiters now, .error)
  | .clearOldWaiters now => (state.oldWaiters now, .error)
  | .drain => (if settings.client = .table then state.waiters.length else 0, .error)
  | _ => (0, .error)

namespace Ledger

def answer (ledger : Ledger) (reply : Reply) : Ledger :=
  { ledger with
    given := ledger.given + 1
    answered := ledger.answered ++ [(ledger.given, reply)] }

def wait (ledger : Ledger) (deadline : Nat) : Ledger :=
  { ledger with
    given := ledger.given + 1
    waiting := ledger.waiting.orderedInsert (fun first second => first.1 < second.1)
      (deadline, ledger.given)
    cleanups := ledger.cleanups ++ [deadline] }

def feed (ledger : Ledger) (feeds : Nat × Reply) : Ledger :=
  { ledger with
    answered := ledger.answered ++
      (ledger.waiting.take feeds.1).map fun request => (request.2, feeds.2)
    waiting := ledger.waiting.drop feeds.1 }

def next (settings : Settings) (state : State) (ledger : Ledger) : Event → Ledger
  | .getSession deadline =>
    match settings.sessionSource state with
    | .pool => ledger.answer (if state.sessions.isEmpty then .newSession else .sessionToUser)
    | .waiter => ledger.wait deadline
    | .error => ledger.answer .error
  | .clearOldWaiters now =>
    { ledger.feed (settings.feeds state (.clearOldWaiters now)) with
      cleanups := ledger.cleanups.filter (now < ·) }
  | event => ledger.feed (settings.feeds state event)

end Ledger

def record (settings : Settings) (event : Event) : Code Empty Assertion (State × Ledger) Unit :=
  fun (state, ledger) =>
    match react settings event state with
    | .returned _ after => .returned () (after, ledger.next settings state event)
    | .stopped assertion => .stopped assertion

/-! ## The queue -/

def Settings.queued (settings : Settings) (state : State) : Event → List Nat
  | .getSession deadline =>
    if settings.sessionSource state = .waiter then
      state.waiters.orderedInsert (· < ·) deadline
    else state.waiters
  | event => state.waiters.drop (settings.feeds state event).1

theorem drop_oldWaiters : state.waiters.drop (state.oldWaiters now) = getOld now state.waiters :=
  (suffix_iff_eq_drop.mp (dropWhile_suffix _)).symm

/-- A section takes from the queue the requests that are answered after it, and no others. -/
theorem react_queued (settings : Settings) (event : Event) (state : State) :
    (react settings event).wp (.keeping fun after => after.waiters = settings.queued state event)
      state := by
  cases event with
  | getSession deadline =>
    simp only [react, getSession, wp_rules, Settings.queued]
    cases source : settings.sessionSource state <;>
      simp only [incrementActiveCounterUnsafe, pushWaiter, takeLast, wp_rules] <;>
      split <;> simp [hold, replyNewSession]
  | returnSession index =>
    simp only [react, returnSession, wp_rules]
    split
    · rename_i active session found
      simp only [poolReturnSession, wp_rules, Settings.queued, Settings.feeds, found]
      cases closed : state.closed <;> cases returns : session.canReturnToPool <;>
        cases waiters : state.waiters <;> simp [emplace, decrementActiveCounter,
          incrementActiveCounterUnsafe, setHolder, waiters]
    · simp only [Settings.queued, Settings.feeds]
      rfl
  | deleteSession index =>
    simp only [react, deleteSession, wp_rules]
    split
    · rename_i session found
      simp only [checkAndFeedWaiterNewSession, wp_rules, Settings.queued, Settings.feeds, found]
      cases owned : session.isOwnedBySessionPool <;> cases closed : state.closed <;>
        cases waiters : state.waiters <;> simp [setHolder, destroy, closeInternal, replyNewSession,
          KqpSession.setNeedUpdateActiveCounter, waiters]
    · simp only [Settings.queued, Settings.feeds]
      rfl
  | periodicTask now =>
    simp [react, periodicTask, Settings.queued, Settings.feeds, drop_oldWaiters]
  | clearOldWaiters now => exact drop_oldWaiters.symm
  | drain =>
    by_cases table : settings.client = .table <;>
      simp [react, drain, table, Settings.queued, Settings.feeds]
  | replySessionToUser index =>
    simp only [react, replySessionToUser, setHolder, wp_rules]
    split
    · simp only [wp_rules]
      split <;> simp [Settings.queued, Settings.feeds]
    · rfl
  | created id retry now => simp [react, created, allocate, hold, Settings.queued, Settings.feeds]
  | createSession id now =>
    cases id <;> simp [react, createSession, allocate, hold, Settings.queued, Settings.feeds]
  | shutDown target => cases target <;> rfl
  | closeFromServer target =>
    simp only [react, closeFromServer, onCloseSession, wp_rules]
    split
    · rfl
    · simp only [wp_rules]
      split <;> simp [Settings.queued, Settings.feeds]
  | finishDeleteSession index =>
    simp only [react, finishDeleteSession, decrementActiveCounter, wp_rules]
    split <;> simp [destroy, closeInternal, setHolder, Settings.queued, Settings.feeds]
  | markBroken index | scheduleTimeToTouch index time past | release index migrate =>
    simp only [react, onRequest, release, wp_rules]
    split <;> rfl

/-! ## Runs -/

theorem lt_of_mem_getOld {now : Nat} {queue : List Nat} (sorted : queue.Pairwise (· ≤ ·))
    (member : deadline ∈ getOld now queue) : now < deadline := by
  induction queue with
  | nil => contradiction
  | cons first rest ih =>
    have tail := pairwise_cons.mp sorted
    by_cases old : now < first
    · rw [getOld, dropWhile_cons_of_neg (by simpa using old)] at member
      rcases mem_cons.mp member with same | later
      · exact same ▸ old
      · exact old.trans_le (tail.1 _ later)
    · rw [getOld, dropWhile_cons_of_pos (by simpa using old)] at member
      exact ih tail.2 member

/-- Every request is answered once or waits, the queue holds those that wait, and their
clean-ups are to come. -/
structure Ledger.Exact (state : State) (ledger : Ledger) : Prop where
  once : (ledger.answered.map Prod.fst ++ ledger.waiting.map Prod.snd).Perm (.range ledger.given)
  queue : ledger.waiting.map Prod.fst = state.waiters
  sorted : state.waiters.Pairwise (· ≤ ·)
  scheduled : ∀ deadline ∈ state.waiters, deadline ∈ ledger.cleanups

namespace Ledger.Exact

variable {after : State} {ledger : Ledger} {reply : Reply}

variable (exact : Exact state ledger)
include exact

theorem answer (waiters : after.waiters = state.waiters) : Exact after (ledger.answer reply) := by
  refine ⟨?_, exact.queue.trans waiters.symm, waiters ▸ exact.sorted, waiters ▸ exact.scheduled⟩
  simp only [Ledger.answer, map_append, append_assoc, range_succ]
  exact perm_middle.trans ((exact.once.cons _).trans (perm_append_singleton _ _).symm)

theorem wait (waiters : after.waiters = state.waiters.orderedInsert (· < ·) deadline) :
    Exact after (ledger.wait deadline) := by
  refine ⟨?_, ?_, waiters ▸ Multimap.sorted_orderedInsert exact.sorted, fun other member => ?_⟩
  · simp only [Ledger.wait, range_succ]
    have queued := (perm_orderedInsert (fun first second : Nat × Nat => first.1 < second.1)
      (deadline, ledger.given) ledger.waiting).map Prod.snd
    exact (queued.append_left _).trans
      (perm_middle.trans ((exact.once.cons _).trans (perm_append_singleton _ _).symm))
  · rw [waiters, ← exact.queue]
    exact map_orderedInsert _ _ Prod.fst _ _ (fun _ _ => .rfl) fun _ _ => .rfl
  · rw [waiters, mem_orderedInsert] at member
    rcases member with same | earlier
    · exact mem_append_right _ (mem_singleton.mpr same)
    · exact mem_append_left _ (exact.scheduled other earlier)

theorem feed
    (waiters : after.waiters = state.waiters.drop feeds.1) : Exact after (ledger.feed feeds) := by
  refine ⟨?_, ?_, waiters ▸ exact.sorted.drop, fun other member => ?_⟩
  · have numbers : ((ledger.waiting.take feeds.1).map fun request => (request.2, feeds.2)).map Prod.fst =
        (ledger.waiting.take feeds.1).map Prod.snd := by
      rw [map_map]
      rfl
    simp only [Ledger.feed, map_append, numbers, append_assoc]
    rw [← map_append, take_append_drop]
    exact exact.once
  · rw [waiters, ← exact.queue, Ledger.feed, map_drop]
  · rw [waiters] at member
    exact exact.scheduled other (mem_of_mem_drop member)

theorem clear (waiters : after.waiters = getOld now state.waiters) :
    Exact after (ledger.next settings state (.clearOldWaiters now)) := by
  have fed : Exact after (ledger.feed (settings.feeds state (.clearOldWaiters now))) :=
    exact.feed (waiters.trans drop_oldWaiters.symm)
  refine { fed with scheduled := fun other member => mem_filter.mpr ⟨fed.scheduled other member, ?_⟩ }
  rw [waiters] at member
  exact decide_eq_true (lt_of_mem_getOld exact.sorted member)

theorem next (waiters : after.waiters = settings.queued state event) :
    Exact after (ledger.next settings state event) := by
  cases event with
  | getSession deadline =>
    unfold Settings.queued at waiters
    unfold Ledger.next
    cases source : settings.sessionSource state <;> simp only [source] at waiters
    · exact exact.answer waiters
    · exact exact.wait waiters
    · exact exact.answer waiters
  | clearOldWaiters now => exact exact.clear (waiters.trans drop_oldWaiters)
  | _ => exact exact.feed waiters

end Ledger.Exact

theorem record_exact (exact : ledger.Exact state) :
    (record settings event).wp (.keeping fun pair => pair.2.Exact pair.1) (state, ledger) := by
  have queued := react_queued settings event state
  unfold Code.wp at queued
  unfold Code.wp record
  dsimp only
  cases ending : react settings event state with
  | returned value after =>
    rw [ending] at queued
    exact exact.next queued
  | thrown exception after => exact exception.elim
  | stopped assertion => trivial

end YdbSdk.Session
