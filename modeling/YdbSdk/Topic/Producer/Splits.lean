import YdbSdk.Control.Run
import YdbSdk.Data.Assoc

namespace YdbSdk.Topic.Producer.Splits

open YdbSdk.Control YdbSdk.Data Code

/-! # The workers of split partitions

When a partition is split, a `TSplittedPartitionWorker` describes the topic, asks for the
largest sequence number of the partition and its ancestors, and then has the messages
resent to the children.  `RunSplittedPartitionWorkers` looks at each worker in turn and
lets it work unless it is done, while the answers come in other threads.  So a look at a
worker, its work and each answer are events of their own here.
-/

inductive EState where
  | init
  | pendingDescribe
  | gotDescribe
  | pendingMaxSeqNo
  | gotMaxSeqNo
  | done
  | failed
deriving DecidableEq

inductive Status where
  | success
  | overloaded
  | internalError
  | other (code : Nat)
deriving DecidableEq

structure PartitionDescription where
  partitionId : Nat
  childPartitionIds : List Nat := []
  parentPartitionIds : List Nat := []
deriving DecidableEq

structure PartitionInfo where
  children : List Nat := []
  locked : Bool := false
  cachedMaxSeqNo : Option Nat := none

/-- `description` is what the last `DescribeTopic` returned, none if it failed, and
`awaited` are the ancestors whose `GetInitSeqNo` has not answered.  A write session is
named by its partition. -/
structure SplittedPartitionWorker where
  state : EState := .init
  description : List PartitionDescription := []
  retries : Nat := 0
  maxSeqNo : Nat := 0
  cachedMaxSeqNos : Assoc Nat Nat := []
  notReadyFutures : Nat := 0
  awaited : List Nat := []
  writeSessionsToCloseOnError : List Nat := []
  writeSessionPartitionsToDestroy : List Nat := []

/-- `due` is the worker that the loop has found not done and lets work next, and `ready`
are those it has found done.  The last four fields are history: the partitions whose
messages were resent and after which number, the sessions given up, the workers that
failed with the session that made them fail, and what has closed the producer. -/
structure State where
  partitions : Assoc Nat PartitionInfo
  splittedPartitionWorkers : Assoc Nat SplittedPartitionWorker := []
  readySplittedPartitionWorkers : List Nat := []
  mainWorkerOwner : Option Nat := none
  due : Option Nat := none
  ready : List Nat := []
  closed : Bool := false
  closeEvent : Option Status := none
  resent : List (Nat × Nat) := []
  destroyed : List Nat := []
  failed : List (Nat × Option Nat) := []
  closings : List (Option Nat × Status) := []

inductive Assertion where
  | partitionNotFound

abbrev Work := Code Empty Assertion State

def State.setWorker (state : State) (partition : Nat) (worker : SplittedPartitionWorker) : State :=
  { state with splittedPartitionWorkers := state.splittedPartitionWorkers.insert partition worker }

def State.changePartition (state : State) (partition : Nat) (change : PartitionInfo → PartitionInfo) :
    State :=
  match state.partitions.find partition with
  | some info => { state with partitions := state.partitions.insert partition (change info) }
  | none => state

/-- Only the first closing sets the close event. -/
def State.close (state : State) (session : Option Nat) (status : Status) : State :=
  { state with
    closed := true
    closeEvent := state.closeEvent.or (some status)
    closings := state.closings ++ [(session, status)] }

/-! ## The events worker -/

def handleSessionClosedEvent (partition : Nat) (status : Status) : Work Unit := do
  if status = .success then pure ()
  else
    .update fun state => state.changePartition partition fun info => { info with locked := true }
    if status = .overloaded then
      .update fun state =>
        if (state.splittedPartitionWorkers.find partition).isSome then state
        else state.setWorker partition {}
    else .update fun state => state.close (some partition) status

/-- `received` is the close event that the session has in its queue. -/
def getSessionClosedEventAndDie (received : Assoc Nat Status) (session : Nat) : Work Unit :=
  match received.find session with
  | none | some .success | some .overloaded => handleSessionClosedEvent session .internalError
  | some status => handleSessionClosedEvent session status

/-! ## A worker -/

namespace SplittedPartitionWorker

def isDone (worker : SplittedPartitionWorker) : Bool :=
  worker.state == .done || worker.state == .failed

def updateMaxSeqNo (worker : SplittedPartitionWorker) (partition maxSeqNo : Nat) :
    SplittedPartitionWorker :=
  { worker with
    cachedMaxSeqNos := worker.cachedMaxSeqNos.insert partition maxSeqNo
    maxSeqNo := max worker.maxSeqNo maxSeqNo }

def describes (worker : SplittedPartitionWorker) (partition : Nat) : Bool :=
  worker.description.any fun described => described.partitionId == partition

def children (worker : SplittedPartitionWorker) (partition : Nat) : List Nat :=
  match worker.description.find? fun described => described.partitionId == partition with
  | some described => described.childPartitionIds
  | none => []

/-- The partition, its first parent, and so on.  A description whose parents run in a
circle would keep the source in this loop. -/
def ancestors (worker : SplittedPartitionWorker) : Nat → Nat → List Nat
  | 0, partition => [partition]
  | fuel + 1, partition =>
    match worker.description.reverse.find? fun described =>
        described.partitionId == partition && !described.parentPartitionIds.isEmpty with
    | some described => partition :: worker.ancestors fuel (described.parentPartitionIds.headD 0)
    | none => [partition]

/-- A largest number that is already known needs no session. -/
def awaitMaxSeqNo (partitions : Assoc Nat PartitionInfo) (worker : SplittedPartitionWorker)
    (ancestor : Nat) : SplittedPartitionWorker :=
  match (partitions.find ancestor).bind PartitionInfo.cachedMaxSeqNo with
  | some maxSeqNo =>
    { worker.updateMaxSeqNo ancestor maxSeqNo with notReadyFutures := worker.notReadyFutures - 1 }
  | none => { worker with awaited := worker.awaited ++ [ancestor] }

end SplittedPartitionWorker

def State.addChildren (state : State) (partition : Nat) (children : List Nat) : State :=
  { state with
    partitions := children.foldl (fun partitions child => partitions.insert child { locked := true })
      state.partitions }.changePartition partition fun info => { info with children }

def handleDescribeResult (partition : Nat) (worker : SplittedPartitionWorker) :
    Work SplittedPartitionWorker := do
  let children := worker.children partition
  if children.isEmpty then
    if 40 ≤ worker.retries + 1 then
      .update fun state => { state with failed := state.failed ++ [(partition, none)] }
      pure { worker with retries := worker.retries + 1, state := .failed }
    else pure { worker with retries := worker.retries + 1, state := .init }
  else if children.all worker.describes then
    .require ((← .read State.partitions).find partition).isSome .partitionNotFound
    .update fun state => state.addChildren partition children
    pure worker
  else
    .update fun state => { state with failed := state.failed ++ [(partition, none)] }
    pure { worker with state := .failed }

/-- A future that is ready already answers in the middle of this; it may as well answer
right after it. -/
def launchGetMaxSeqNoFutures (partition : Nat) (worker : SplittedPartitionWorker) :
    Work SplittedPartitionWorker := do
  let partitions ← .read State.partitions
  let ancestors := worker.ancestors worker.description.length partition
  .require (ancestors.all fun ancestor => (partitions.find ancestor).isSome) .partitionNotFound
  let launched := ancestors.foldl (.awaitMaxSeqNo partitions)
    { worker with notReadyFutures := ancestors.length }
  pure { launched with state := if launched.notReadyFutures = 0 then .gotMaxSeqNo else .pendingMaxSeqNo }

def resendMessages (partition : Nat) (worker : SplittedPartitionWorker) : Work Unit := do
  let partitions ← .read State.partitions
  match partitions.find partition with
  | none => .stop .partitionNotFound
  | some info => do
      .require (info.children.all fun child => (partitions.find child).isSome) .partitionNotFound
      .require (worker.cachedMaxSeqNos.all fun cached => (partitions.find cached.1).isSome)
        .partitionNotFound
      .update fun state =>
        let unlocked := (info.children ++ [partition]).foldl (fun state partition =>
          state.changePartition partition fun info => { info with locked := false })
          { state with resent := state.resent ++ [(partition, worker.maxSeqNo)] }
        worker.cachedMaxSeqNos.foldl (fun state cached => state.changePartition cached.1 fun info =>
          { info with cachedMaxSeqNo := some cached.2 }) unlocked

def destroyWriteSessions (partitions : List Nat) : Work Unit :=
  .update fun state => { state with destroyed := state.destroyed ++ partitions }

def work (received : Assoc Nat Status) (partition : Nat) (worker : SplittedPartitionWorker) :
    Work Unit := do
  let keep (worker : SplittedPartitionWorker) : Work Unit :=
    .update fun state => state.setWorker partition worker
  match worker.state with
  | .init => keep { worker with state := .pendingDescribe }
  | .gotDescribe => do
      let described ← handleDescribeResult partition worker
      if described.state = .gotDescribe then
        keep (← launchGetMaxSeqNoFutures partition described)
      else keep described
  | .pendingDescribe | .pendingMaxSeqNo | .done => pure ()
  | .failed => do
      keep { worker with
        state := .done, writeSessionsToCloseOnError := [], writeSessionPartitionsToDestroy := [] }
      .forEach worker.writeSessionsToCloseOnError (getSessionClosedEventAndDie received)
      destroyWriteSessions worker.writeSessionPartitionsToDestroy
  | .gotMaxSeqNo => do
      keep { worker with state := .done, writeSessionPartitionsToDestroy := [] }
      resendMessages partition worker
      destroyWriteSessions worker.writeSessionPartitionsToDestroy

/-! ## The run loop -/

def check (partition : Nat) : Work Unit := do
  match (← .read State.splittedPartitionWorkers).find partition with
  | none => pure ()
  | some worker =>
    if worker.isDone then .update fun state => { state with ready := state.ready ++ [partition] }
    else .update fun state => { state with due := some partition }

def doWork (received : Assoc Nat Status) : Work Unit := do
  let state ← .get
  match state.due with
  | none => pure ()
  | some partition => do
      .update fun state => { state with due := none }
      match state.splittedPartitionWorkers.find partition with
      | none => pure ()
      | some worker => work received partition worker

/-- The worker that the main worker runs for is kept until another one owns it. -/
def finish : Work Unit :=
  .update fun state =>
    { state with
      splittedPartitionWorkers := state.splittedPartitionWorkers.eraseAll state.ready
      readySplittedPartitionWorkers := (state.readySplittedPartitionWorkers ++ state.ready).filter
        fun partition => state.mainWorkerOwner == some partition
      ready := [] }

/-! ## Answers -/

def onDescribe (partition : Nat) (description : List PartitionDescription) : Work Unit := do
  match (← .read State.splittedPartitionWorkers).find partition with
  | none => pure ()
  | some worker =>
    .when (worker.state == .pendingDescribe)
      (.update fun state =>
        state.setWorker partition { worker with state := .gotDescribe, description })

/-- Without a `result` the future has an exception. -/
def onInitSeqNo (partition ancestor : Nat) (result : Option Nat) : Work Unit := do
  match (← .read State.splittedPartitionWorkers).find partition with
  | none => pure ()
  | some worker => .when (worker.awaited.contains ancestor && !worker.isDone) do
      let answered := { worker with awaited := worker.awaited.erase ancestor }
      match result with
      | none =>
        .update fun state =>
          { state.setWorker partition { answered with
              state := .failed
              writeSessionsToCloseOnError := worker.writeSessionsToCloseOnError ++ [ancestor] } with
            failed := state.failed ++ [(partition, some ancestor)] }
      | some maxSeqNo =>
        .update fun state => state.setWorker partition { answered.updateMaxSeqNo ancestor maxSeqNo with
          writeSessionPartitionsToDestroy := worker.writeSessionPartitionsToDestroy ++ [ancestor]
          notReadyFutures := worker.notReadyFutures - 1
          state := if worker.notReadyFutures = 1 then .gotMaxSeqNo else worker.state }

inductive Event where
  | handleSessionClosedEvent (partition : Nat) (status : Status)
  | close
  | runMainWorker (owner : Option Nat)
  | check (partition : Nat)
  | doWork (received : Assoc Nat Status)
  | finish
  | onDescribe (partition : Nat) (description : List PartitionDescription)
  | onInitSeqNo (partition ancestor : Nat) (result : Option Nat)
deriving DecidableEq

/-- Between its look at a worker and the work, the main worker does nothing else. -/
def whenIdle (code : Work Unit) : Work Unit := do
  .when (← .read State.due).isNone code

def react : Event → Work Unit
  | .handleSessionClosedEvent partition status => whenIdle (handleSessionClosedEvent partition status)
  | .close => .update fun state => state.close none .success
  | .runMainWorker owner => whenIdle (.update fun state => { state with mainWorkerOwner := owner })
  | .check partition => whenIdle (check partition)
  | .doWork received => doWork received
  | .finish => whenIdle finish
  | .onDescribe partition description => onDescribe partition description
  | .onInitSeqNo partition ancestor result => onInitSeqNo partition ancestor result

def start (partitions : List Nat) : State :=
  { partitions := partitions.map fun partition => (partition, {}) }

/-! ## Failures -/

/-- The description, if one is to be handled now, does not make the worker fail. -/
def SplittedPartitionWorker.survives (worker : SplittedPartitionWorker) (partition : Nat) : Bool :=
  worker.state != .gotDescribe ||
    if (worker.children partition).isEmpty then worker.retries + 1 < 40
    else (worker.children partition).all worker.describes

/-- A worker fails only between the loop's look at it and its work, by a session that
gives no sequence number, and never by a description. -/
def State.failsDue (state : State) : Event → Bool
  | .onInitSeqNo partition _ none => state.due == some partition
  | .doWork _ =>
    match state.due with
    | some partition =>
      (state.splittedPartitionWorkers.find partition).all (SplittedPartitionWorker.survives · partition)
    | none => true
  | _ => true

def State.ClosedBy (state : State) (session : Option Nat) : Prop :=
  state.closed = true ∧ ∃ status, status ≠ .success ∧ (session, status) ∈ state.closings

/-- The sessions with which the worker that is about to work will close the producer. -/
def State.dying (state : State) : List Nat :=
  match state.due.bind fun partition => state.splittedPartitionWorkers.find partition with
  | some worker => if worker.state = .failed then worker.writeSessionsToCloseOnError else []
  | none => []

variable {state after : State} {partition : Nat}

theorem State.ClosedBy.close {session : Option Nat} (closed : state.ClosedBy session)
    (other : Option Nat) (status : Status) : (state.close other status).ClosedBy session := by
  obtain ⟨_, error, notSuccess, member⟩ := closed
  exact ⟨rfl, error, notSuccess, List.mem_append_left _ member⟩

/-- What the workers have come to so far, apart from the one that is about to work. -/
def State.history (state : State) :
    Option Status × Bool × List (Option Nat × Status) × List (Nat × Option Nat) :=
  (state.closeEvent, state.closed, state.closings, state.failed)

@[simp] theorem State.changePartition_history (state : State) (partition : Nat)
    (change : PartitionInfo → PartitionInfo) :
    (state.changePartition partition change).history = state.history := by
  unfold State.changePartition
  split <;> rfl

theorem foldl_history {change : State → α → State}
    (same : ∀ state item, (change state item).history = state.history) (items : List α) (state : State) :
    (items.foldl change state).history = state.history := by
  induction items generalizing state with
  | nil => rfl
  | cons item rest ih => rw [List.foldl_cons, ih, same]

/-- Each failed worker has closed the producer, or one of the sessions is still to do so.
The close event is the first that closed it. -/
structure Closes (sessions : List Nat) (state : State) : Prop where
  closeEvent : state.closeEvent = state.closings.head?.map Prod.snd
  failed : ∀ entry ∈ state.failed,
    state.ClosedBy entry.2 ∨ ∃ session ∈ sessions, entry.2 = some session

variable {sessions : List Nat}

theorem Closes.of_history (closes : Closes sessions state) (same : after.history = state.history) :
    Closes sessions after := by
  simp only [State.history, Prod.mk.injEq] at same
  obtain ⟨closeEvent, closed, closings, failed⟩ := same
  refine ⟨?_, ?_⟩
  · rw [closeEvent, closings]
    exact closes.closeEvent
  · rw [failed]
    intro entry member
    rcases closes.failed entry member with done | waits
    · left
      rw [State.ClosedBy, closed, closings]
      exact done
    · exact .inr waits

theorem Closes.close (closes : Closes sessions state) (session : Option Nat) (status : Status) :
    Closes sessions (state.close session status) := by
  refine ⟨?_, fun entry member => ?_⟩
  · simp only [State.close, closes.closeEvent]
    cases state.closings <;> rfl
  · exact (closes.failed entry member).imp_left fun closed => closed.close session status

theorem Closes.mono (closes : Closes [] state) : Closes more state :=
  ⟨closes.closeEvent, fun entry member => .inl ((closes.failed entry member).resolve_right (by simp))⟩

theorem handleSessionClosedEvent_closes (status : Status) (closes : Closes [] state) :
    (handleSessionClosedEvent partition status).wp (.keeping (Closes [])) state := by
  simp only [handleSessionClosedEvent, wp_rules]
  have locked := closes.of_history (state.changePartition_history partition fun info =>
    { info with locked := true })
  refine ⟨fun _ => closes, fun _ => ⟨fun _ => locked.of_history ?_, fun _ => locked.close _ status⟩⟩
  split <;> rfl

theorem getSessionClosedEventAndDie_closes {session : Nat} {rest : List Nat}
    (received : Assoc Nat Status) (closes : Closes (session :: rest) state) :
    (getSessionClosedEventAndDie received session).wp (.keeping (Closes rest)) state := by
  have dies (status : Status) (error : status ≠ .success) (notOverloaded : status ≠ .overloaded) :
      (handleSessionClosedEvent session status).wp (.keeping (Closes rest)) state := by
    simp only [handleSessionClosedEvent, error, notOverloaded]
    have locked := closes.of_history (state.changePartition_history session fun info =>
      { info with locked := true })
    refine ⟨(locked.close _ status).closeEvent, fun entry member => ?_⟩
    rcases (locked.close (some session) status).failed entry member with closed | ⟨other, waits, same⟩
    · exact .inl closed
    · rcases List.mem_cons.mp waits with rfl | later
      · exact .inl (same ▸ ⟨rfl, status, error, List.mem_append_right _ (by simp)⟩)
      · exact .inr ⟨other, later, same⟩
  unfold getSessionClosedEventAndDie
  split
  · exact dies _ (by simp) (by simp)
  · exact dies _ (by simp) (by simp)
  · exact dies _ (by simp) (by simp)
  · rename_i status notSuccess notOverloaded _
    exact dies status (fun same => notSuccess same) (fun same => notOverloaded same)

theorem resendMessages_closes (worker : SplittedPartitionWorker) (closes : Closes [] state) :
    (resendMessages partition worker).wp (.keeping (Closes [])) state := by
  simp only [resendMessages, wp_rules]
  cases state.partitions.find partition with
  | none => trivial
  | some info =>
    simp only [wp_rules]
    refine ⟨fun _ => ⟨fun _ => closes.of_history ?_, fun _ => trivial⟩, fun _ => trivial⟩
    rw [foldl_history (by simp), foldl_history (by simp)]
    rfl

theorem work_closes {worker : SplittedPartitionWorker} (received : Assoc Nat Status)
    (survives : worker.survives partition = true)
    (closes : Closes (if worker.state = .failed then worker.writeSessionsToCloseOnError else []) state) :
    (work received partition worker).wp (.keeping (Closes [])) state := by
  have unfailed (other : worker.state ≠ .failed) : Closes [] state := by simpa [other] using closes
  unfold work
  cases phase : worker.state with
  | init => exact (unfailed (by simp [phase])).of_history rfl
  | pendingDescribe | pendingMaxSeqNo | done => exact unfailed (by simp [phase])
  | gotDescribe =>
    simp only [SplittedPartitionWorker.survives, phase, bne_self_eq_false, Bool.false_or] at survives
    replace closes := unfailed (by simp [phase])
    simp only [handleDescribeResult, launchGetMaxSeqNoFutures, wp_rules]
    refine ⟨fun childless => ⟨fun many => ?_, fun _ => ⟨by simp, fun _ => closes.of_history rfl⟩⟩,
      fun parent => ⟨fun _ => ⟨fun _ => ?_, fun _ => trivial⟩, fun undescribed => ?_⟩⟩
    · rw [if_pos childless, decide_eq_true_eq] at survives
      omega
    · have added : (state.addChildren partition (worker.children partition)).history = state.history :=
        State.changePartition_history _ _ _
      exact ⟨fun _ => ⟨fun _ => (closes.of_history added).of_history rfl, fun _ => trivial⟩,
        fun _ => (closes.of_history added).of_history rfl⟩
    · rw [if_neg parent] at survives
      contradiction
  | failed =>
    replace closes : Closes worker.writeSessionsToCloseOnError state := by simpa [phase] using closes
    simp only [wp_rules]
    refine wp_forEach Closes (closes.of_history rfl) ?_ fun _ done => done.of_history rfl
    intro session rest before left
    exact wp_mono_stops (getSessionClosedEventAndDie_closes received left) (fun _ _ => id) (by simp)
      (fun _ _ => trivial)
  | gotMaxSeqNo =>
    replace closes := unfailed (by simp [phase])
    simp only [wp_rules]
    refine wp_then (resendMessages_closes worker (closes.of_history rfl)) ?_
    exact fun _ _ done => .of_history done rfl

theorem doWork_closes (received : Assoc Nat Status) (closes : Closes state.dying state)
    (fails : state.failsDue (.doWork received) = true) :
    (doWork received).wp (.keeping fun after => Closes after.dying after) state := by
  simp only [doWork, wp_rules]
  cases due : state.due with
  | none => exact closes
  | some partition =>
    simp only [wp_rules]
    cases found : state.splittedPartitionWorkers.find partition with
    | none =>
      have nobody : state.dying = [] := by simp [State.dying, due, found]
      rw [nobody] at closes
      exact closes.of_history rfl
    | some worker =>
      have sessions : state.dying =
          if worker.state = .failed then worker.writeSessionsToCloseOnError else [] := by
        simp [State.dying, due, found]
      rw [sessions] at closes
      exact wp_mono (work_closes received (by simpa [State.failsDue, due, found] using fails)
        (closes.of_history rfl)) (fun _ _ done => .mono done) (by simp)

theorem Closes.setWorker (closes : Closes state.dying state)
    (found : state.splittedPartitionWorkers.find partition = some worker)
    (unfailed : worker.state ≠ .failed) (new : SplittedPartitionWorker) :
    Closes (state.setWorker partition new).dying (state.setWorker partition new) := by
  by_cases due : state.due = some partition
  · have nobody : state.dying = [] := by simp [State.dying, due, found, unfailed]
    have kept : Closes [] (state.setWorker partition new) := (nobody ▸ closes).of_history rfl
    exact kept.mono
  · have same : (state.setWorker partition new).dying = state.dying := by
      cases other : state.due with
      | none => simp [State.dying, State.setWorker, other]
      | some name =>
        have different : name ≠ partition := fun same => due (same ▸ other)
        simp [State.dying, State.setWorker, other, different]
    rw [same]
    exact closes.of_history rfl

theorem onInitSeqNo_closes (closes : Closes state.dying state)
    (fails : state.failsDue (.onInitSeqNo partition ancestor result) = true) :
    (onInitSeqNo partition ancestor result).wp (.keeping fun after => Closes after.dying after)
      state := by
  simp only [onInitSeqNo, wp_rules]
  cases found : state.splittedPartitionWorkers.find partition with
  | none => exact closes
  | some worker =>
    rw [wp_when]
    refine ⟨fun awaited => ?_, fun _ => closes⟩
    have unfailed : worker.state ≠ .failed := by
      intro failed
      simp [SplittedPartitionWorker.isDone, failed] at awaited
    cases result with
    | some maxSeqNo => exact closes.setWorker found unfailed _
    | none =>
      have due : state.due = some partition := beq_iff_eq.mp fails
      have nobody : state.dying = [] := by simp [State.dying, due, found, unfailed]
      rw [nobody] at closes
      refine ⟨closes.closeEvent, fun entry member => ?_⟩
      rcases List.mem_append.mp member with earlier | new
      · exact .inl ((closes.failed entry earlier).resolve_right (by simp))
      · rw [List.mem_singleton.mp new]
        exact .inr ⟨ancestor, by simp [State.dying, State.setWorker, due], rfl⟩

theorem whenIdle_closes (closes : Closes state.dying state)
    (met : Closes [] state → code.wp (.keeping (Closes [])) state) :
    (whenIdle code).wp (.keeping fun after => Closes after.dying after) state := by
  simp only [whenIdle, wp_rules, Option.isNone_iff_eq_none]
  refine ⟨fun idle => ?_, fun _ => closes⟩
  have nobody : state.dying = [] := by simp [State.dying, idle]
  exact wp_mono (met (nobody ▸ closes)) (fun _ _ done => .mono done) (by simp)

theorem react_closes (closes : Closes state.dying state)
    (fails : state.failsDue event = true) :
    (react event).wp (.keeping fun after => Closes after.dying after) state := by
  cases event with
  | handleSessionClosedEvent partition status =>
    exact whenIdle_closes closes (handleSessionClosedEvent_closes status)
  | close => exact closes.close none .success
  | runMainWorker owner => exact whenIdle_closes closes fun done => done.of_history rfl
  | check partition =>
    apply whenIdle_closes closes
    intro done
    simp only [check, wp_rules]
    cases state.splittedPartitionWorkers.find partition with
    | none => exact done
    | some worker =>
      rw [wp_ite]
      exact ⟨fun _ => done.of_history rfl, fun _ => done.of_history rfl⟩
  | doWork received => exact doWork_closes received closes fails
  | finish => exact whenIdle_closes closes fun done => done.of_history rfl
  | onDescribe partition description =>
    simp only [react, onDescribe, wp_rules]
    cases found : state.splittedPartitionWorkers.find partition with
    | none => exact closes
    | some worker =>
      simp only [wp_rules, beq_iff_eq]
      refine ⟨fun pending => ?_, fun _ => closes⟩
      exact closes.setWorker found (by simp [pending]) _
  | onInitSeqNo partition ancestor result => exact onInitSeqNo_closes closes fails

abbrev Reaches (partitions : List Nat) (state : State) : Prop :=
  Reachable react (fun state event => state.failsDue event = true) (start partitions) state

/-- In every run in which workers fail only when they are about to work, a worker that
has failed by a session has closed the producer with an error of that session, or does so
as soon as it works.  What closed the producer first is its close event. -/
theorem failed_split_closes_producer (partitions : List Nat) {state : State}
    (reached : Reaches partitions state) :
    state.closeEvent = state.closings.head?.map Prod.snd ∧
      ∀ entry ∈ state.failed,
        state.ClosedBy entry.2 ∨ ∃ session ∈ state.dying, entry.2 = some session := by
  have closes : Closes state.dying state := by
    refine @Reachable.invariant _ _ _ _ react _ (start partitions) state
      (fun state => Closes state.dying state) (fun _ => True) reached ⟨rfl, nofun⟩ ?_
    exact fun _ _ closes fails => react_closes closes fails
  exact ⟨closes.closeEvent, closes.failed⟩

def splitUntilAnswer : List Event :=
  [.handleSessionClosedEvent 0 .overloaded, .check 0, .doWork [], .finish,
    .onDescribe 0 [⟨0, [1], []⟩, ⟨1, [], [0]⟩], .check 0, .doWork [], .finish]

theorem failed_split_closes_producer_when_due :
    ∃ state, Reaches [0] state ∧ state.failed = [(0, some 0)] ∧ state.ClosedBy (some 0) := by
  obtain ⟨state, reached, failed, idle⟩ : ∃ state, Reaches [0] state ∧
      state.failed = [(0, some 0)] ∧ state.dying = [] :=
    exists_reachable (splitUntilAnswer ++ [.check 0, .onInitSeqNo 0 0 none, .doWork [], .finish])
      (by decide +kernel)
  obtain ⟨_, closes⟩ := failed_split_closes_producer [0] reached
  rw [idle, failed] at closes
  exact ⟨state, reached, failed, (closes (0, some 0) (by simp)).resolve_right (by simp)⟩

/-- The loop finds the failed worker done and drops it.  Nothing closes the producer, and
the partition stays locked. -/
theorem failed_split_leaves_partition_locked :
    ∃ state, run react (start [0]) (splitUntilAnswer ++ [.onInitSeqNo 0 0 none, .check 0, .finish]) =
        .ok state ∧ state.failed = [(0, some 0)] ∧ state.splittedPartitionWorkers = [] ∧
      state.due = none ∧ state.closed = false ∧
      (state.partitions.find 0).map PartitionInfo.locked = some true := by
  decide +kernel

end YdbSdk.Topic.Producer.Splits
