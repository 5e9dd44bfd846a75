import YdbSdk.Coordination.Connection
import YdbSdk.Coordination.Semaphores

namespace YdbSdk.Coordination

open YdbSdk.Control YdbSdk.Data List

/-! # The semaphores of a session -/

variable {state middle after : State} {name : String} {sem : SemaphoreState} {op : SemaphoreOp}

/-- The table of the requests has only those that wait. -/
def Indexes (table : Assoc Nat String) (waiting : String → List SemaphoreOp) : Prop :=
  ∀ reqId name, table.find reqId = some name → ∃ op ∈ waiting name, op.reqId = reqId

theorem Indexes.erase
    (indexes : Indexes table waiting) (name : String) (reqId : Nat) :
    Indexes (table.erase reqId) (Function.update waiting name
      ((waiting name).filter fun other => other.reqId ≠ reqId)) := by
  intro number other found
  rw [Assoc.find_erase] at found
  have waits := indexes number other
  grind

theorem Indexes.insert
    (indexes : Indexes table waiting) (name : String) (op : SemaphoreOp) :
    Indexes (table.insert op.reqId name) (Function.update waiting name (op :: waiting name)) := by
  intro number other found
  rw [Assoc.find_insert] at found
  have waits := indexes number other
  grind

/-- What the session knows of the operations of one semaphore. -/
structure Cell (nextReqId : Nat) (promises : List OpPromise) (name : String) (sem : SemaphoreState) :
    Prop where
  single : ∀ op other, sem.Has op → sem.Has other → op.number = other.number → op = other
  unique : ∀ op other, sem.Sent op → sem.Sent other → op.reqId = other.reqId → op = other
  sent : ∀ op, sem.Sent op → 0 < op.reqId ∧ op.reqId < nextReqId
  queued : ∀ op ∈ sem.opQueue, op.reqId = 0
  waiting : sem.waitingOps.Nodup
  queue : sem.opQueue.Nodup
  covered : ∀ number, .semaphore name number ∈ promises ↔ ∃ op, sem.Has op ∧ op.number = number

def State.waits (state : State) (name : String) : List SemaphoreOp := (state.semaphore name).waitingOps

structure Tracked (state : State) : Prop where
  names : state.semaphores.Distinct
  positive : 0 < state.nextReqId
  indexes : Indexes state.semaphoreByReqId state.waits
  cells : ∀ name, Cell state.nextReqId state.promises name (state.semaphore name)

theorem Cell.congr
    (cell : Cell nextReqId promises name sem) (grown : nextReqId ≤ later)
    (same : ∀ number, .semaphore name number ∈ remaining ↔ .semaphore name number ∈ promises) :
    Cell later remaining name sem :=
  { cell with
    sent := fun op sent => (cell.sent op sent).imp_right fun below => Nat.lt_of_lt_of_le below grown
    covered := fun number => (same number).trans (cell.covered number) }

/-- Operations leave a semaphore with their promises. -/
theorem Cell.part {nextReqId : Nat} {promises remaining : List OpPromise} {left : SemaphoreState}
    {gone : List SemaphoreOp} (cell : Cell nextReqId promises name sem)
    (within : ∀ op ∈ gone, sem.Has op) (has : ∀ op, left.Has op ↔ sem.Has op ∧ op ∉ gone)
    (sent : ∀ op, left.Sent op → sem.Sent op) (waiting : left.waitingOps.Nodup)
    (queue : left.opQueue.Sublist sem.opQueue)
    (same : ∀ number, .semaphore name number ∈ remaining ↔
      .semaphore name number ∈ promises ∧ ∀ op ∈ gone, op.number ≠ number) :
    Cell nextReqId remaining name left := by
  refine ⟨fun op other first second => cell.single op other ((has op).mp first).1 ((has other).mp second).1,
    fun op other first second => cell.unique op other (sent op first) (sent other second),
    fun op isSent => cell.sent op (sent op isSent), fun op member => cell.queued op (queue.subset member),
    waiting, cell.queue.sublist queue, fun number => ?_⟩
  rw [same, cell.covered]
  constructor
  · intro ⟨⟨op, isHas, isNumber⟩, apart⟩
    exact ⟨op, (has op).mpr ⟨isHas, fun member => apart op member isNumber⟩, isNumber⟩
  · intro ⟨op, isHas, isNumber⟩
    obtain ⟨wasHas, stays⟩ := (has op).mp isHas
    refine ⟨⟨op, wasHas, isNumber⟩, fun other member number => stays ?_⟩
    rw [cell.single op other wasHas (within other member) (isNumber.trans number.symm)]
    exact member

section

variable (tracked : Tracked state)
include tracked

theorem Tracked.congr (names : after.semaphores.Distinct)
    (semaphore : ∀ name, after.semaphore name = state.semaphore name)
    (byReqId : after.semaphoreByReqId = state.semaphoreByReqId)
    (grown : state.nextReqId ≤ after.nextReqId)
    (promises : ∀ name number, .semaphore name number ∈ after.promises ↔
      .semaphore name number ∈ state.promises) : Tracked after := by
  have waits : after.waits = state.waits := by
    funext name
    rw [State.waits, semaphore, State.waits]
  refine ⟨names, Nat.lt_of_lt_of_le tracked.positive grown, ?_, fun name => ?_⟩
  · rw [byReqId, waits]
    exact tracked.indexes
  · rw [semaphore]
    exact (tracked.cells name).congr grown (promises name)

omit tracked in
theorem State.semaphore_insert (semaphores : after.semaphores = state.semaphores.insert name sem)
    (other : String) : after.semaphore other = if other = name then sem else state.semaphore other := by
  rw [State.semaphore, semaphores, Assoc.find_insert]
  split <;> rfl

theorem Tracked.replace (semaphores : after.semaphores = state.semaphores.insert name sem)
    (grown : state.nextReqId ≤ after.nextReqId)
    (indexes : Indexes after.semaphoreByReqId (Function.update state.waits name sem.waitingOps))
    (cell : Cell after.nextReqId after.promises name sem)
    (others : ∀ other number, other ≠ name → (.semaphore other number ∈ after.promises ↔
      .semaphore other number ∈ state.promises)) : Tracked after := by
  have semaphore := State.semaphore_insert semaphores
  have waits : after.waits = Function.update state.waits name sem.waitingOps := by
    funext other
    rw [State.waits, semaphore, Function.update_apply]
    split <;> rfl
  refine ⟨?_, Nat.lt_of_lt_of_le tracked.positive grown, waits ▸ indexes, fun other => ?_⟩
  · rw [semaphores]
    exact tracked.names.insert name sem
  · rw [semaphore]
    split
    · rename_i same
      rw [same]
      exact cell
    · rename_i differ
      exact (tracked.cells other).congr grown fun number => others other number differ

theorem Tracked.unqueued (sent : (state.semaphore name).Sent op) :
    op ∉ (state.semaphore name).opQueue := by
  intro queued
  exact Nat.ne_of_gt ((tracked.cells name).sent op sent).1 ((tracked.cells name).queued op queued)

theorem Tracked.held (has : (state.semaphore name).Has op) :
    .semaphore name op.number ∈ state.promises :=
  ((tracked.cells name).covered op.number).mpr ⟨op, has, rfl⟩

/-! ## One semaphore goes on -/

/-- The operations of semaphores have changed, and nothing else. -/
structure Operated (before after : State) : Prop where
  tracked : Tracked after
  accounted : Accounted after
  link : after.link = before.link
  requests : (after.pendingRequests, after.sentRequests) = (before.pendingRequests, before.sentRequests)
  grown : before.nextReqId ≤ after.nextReqId ∧ before.nextNumber ≤ after.nextNumber
  promises : ∀ number, .request number ∈ after.promises ↔ .request number ∈ before.promises
  noticed : ∀ reqId ∈ before.noticed, reqId ∈ after.noticed

theorem Operated.refl (accounted : Accounted state) : Operated state state :=
  ⟨tracked, accounted, rfl, rfl, ⟨Nat.le_refl _, Nat.le_refl _⟩, fun _ => .rfl, fun _ => id⟩

omit tracked in
theorem Operated.trans (first : Operated state middle) (second : Operated middle after) :
    Operated state after :=
  ⟨second.tracked, second.accounted, second.link.trans first.link, second.requests.trans first.requests,
    ⟨Nat.le_trans first.grown.1 second.grown.1, Nat.le_trans first.grown.2 second.grown.2⟩,
    fun number => (second.promises number).trans (first.promises number),
    fun reqId member => second.noticed reqId (first.noticed reqId member)⟩

omit tracked in
theorem Operated.allowed (operated : Operated state after) :
    after.isWriteAllowed = true ↔ state.isWriteAllowed = true := by
  rw [State.isWriteAllowed_link, State.isWriteAllowed_link, operated.link]

/-- One semaphore has changed.  If its operations were sent again they stay so; only an attached
session sends. -/
structure Turned (name : String) (before after : State) : Prop extends Operated before after where
  others : ∀ other, other ≠ name → after.semaphore other = before.semaphore other
  own : (after.semaphore name).Replayed after.noticed ∧ before.isWriteAllowed = true ∨
    after.waits name = before.waits name ∧
      ((before.semaphore name).Replayed before.noticed → (after.semaphore name).Replayed after.noticed)

theorem Turned.refl (accounted : Accounted state) : Turned name state state :=
  ⟨.refl tracked accounted, fun _ _ => rfl, .inr ⟨rfl, id⟩⟩

omit tracked in
theorem Turned.replayed (turned : Turned name state after)
    (replayed : (state.semaphore name).Replayed state.noticed) :
    (after.semaphore name).Replayed after.noticed :=
  turned.own.elim And.left fun stays => stays.2 replayed

omit tracked in
theorem Turned.trans (first : Turned name state middle) (second : Turned name middle after) :
    Turned name state after := by
  refine ⟨first.toOperated.trans second.toOperated,
    fun other differ => (second.others other differ).trans (first.others other differ), ?_⟩
  rcases second.own with ⟨replayed, permitted⟩ | ⟨waits, stays⟩
  · exact .inl ⟨replayed, first.allowed.mp permitted⟩
  · rcases first.own with ⟨replayed, permitted⟩ | ⟨waited, stayed⟩
    · exact .inl ⟨stays replayed, permitted⟩
    · exact .inr ⟨waits.trans waited, stays ∘ stayed⟩

/-- What the operations of a semaphore leave alone unless one is enqueued or numbered. -/
def State.frame (state : State) :=
  (state.link, state.pendingRequests, state.sentRequests, state.nextReqId, state.nextNumber, state.noticed)

/-- Operations that were sent leave the semaphore with their promises. -/
theorem Turned.change {gone : List SemaphoreOp}
    (allowed : state.isWriteAllowed = true) (frame : after.frame = state.frame)
    (accounted : Accounted after) (semaphores : after.semaphores = state.semaphores.insert name sem)
    (indexes : Indexes after.semaphoreByReqId (Function.update state.waits name sem.waitingOps))
    (waiting : sem.waitingOps.Nodup) (queue : sem.opQueue = (state.semaphore name).opQueue)
    (left : ∀ op ∈ gone, (state.semaphore name).Sent op)
    (sent : ∀ op, sem.Sent op ↔ (state.semaphore name).Sent op ∧ op ∉ gone)
    (promises : ∀ promise, promise ∈ after.promises ↔
      promise ∈ state.promises ∧ ∀ op ∈ gone, promise ≠ .semaphore name op.number)
    (replayed : sem.Replayed state.noticed) : Turned name state after := by
  simp only [State.frame, Prod.mk.injEq] at frame
  obtain ⟨link, pending, sentRequests, nextReqId, nextNumber, noticed⟩ := frame
  have cell := tracked.cells name
  have semaphore := State.semaphore_insert semaphores
  have has : ∀ op, sem.Has op ↔ (state.semaphore name).Has op ∧ op ∉ gone := by
    intro op
    have unqueued : op ∈ gone → op ∉ (state.semaphore name).opQueue :=
      fun member => tracked.unqueued (left op member)
    unfold SemaphoreState.Has
    grind
  have kept : Cell after.nextReqId after.promises name sem := by
    rw [nextReqId]
    refine cell.part (fun op member => .inl (left op member)) has (fun op isSent => ((sent op).mp isSent).1)
      waiting (queue ▸ .refl _) fun number => ?_
    rw [promises]
    simp [eq_comm]
  refine ⟨⟨tracked.replace semaphores (Nat.le_of_eq nextReqId.symm) indexes kept fun other number differ => ?_,
    accounted, link, by rw [pending, sentRequests],
    ⟨Nat.le_of_eq nextReqId.symm, Nat.le_of_eq nextNumber.symm⟩, fun number => ?_,
    fun reqId => noticed ▸ id⟩, fun other differ => ?_, .inl ⟨?_, allowed⟩⟩
  · rw [promises]
    exact and_iff_left fun op _ same => differ (OpPromise.semaphore.inj same).1
  · rw [promises]
    simp
  · rw [semaphore, if_neg differ]
  · rw [semaphore, if_pos rfl, noticed]
    exact replayed

def State.sendNext (state : State) (name : String) (op : SemaphoreOp) (rest : List SemaphoreOp) : State :=
  { state with
    semaphores := state.semaphores.insert name
      (({ state.semaphore name with opQueue := rest } : SemaphoreState).send
        { op with reqId := state.nextReqId })
    semaphoreByReqId := state.semaphoreByReqId.insert state.nextReqId name
    nextReqId := state.nextReqId + 1
    numbered := state.numbered ++ [(name, { op with reqId := state.nextReqId })] }

theorem Tracked.sendNext {rest : List SemaphoreOp} (free : (state.semaphore name).lastSentOp = none)
    (queue : (state.semaphore name).opQueue = op :: rest) : Tracked (state.sendNext name op rest) := by
  have cell := tracked.cells name
  have positive := tracked.positive
  have unsent : ¬ (state.semaphore name).Sent op :=
    fun sent => tracked.unqueued sent (by simp [queue])
  have distinct : op ∉ rest ∧ rest.Nodup := nodup_cons.mp (queue ▸ cell.queue)
  unfold State.sendNext
  generalize isNext : ({ op with reqId := state.nextReqId } : SemaphoreOp) = next
  have number : next.number = op.number := by rw [← isNext]
  have reqId : next.reqId = state.nextReqId := by rw [← isNext]
  have fresh : ∀ earlier, (state.semaphore name).Sent earlier → earlier.reqId ≠ next.reqId :=
    fun earlier sent => reqId ▸ Nat.ne_of_lt (cell.sent earlier sent).2
  generalize isSem : ({ state.semaphore name with opQueue := rest } : SemaphoreState).send next = sem
  have waiting : sem.waitingOps = next :: state.waits name := by rw [← isSem]; rfl
  have restQueue : sem.opQueue = rest := by rw [← isSem]; rfl
  have sent : ∀ other, sem.Sent other ↔ (state.semaphore name).Sent other ∨ other = next := by
    intro other
    rw [← isSem]
    simp only [SemaphoreState.Sent, SemaphoreState.send]
    grind
  have has : ∀ other, sem.Has other ↔
      ((state.semaphore name).Has other ∧ other ≠ op) ∨ other = next := by
    intro other
    unfold SemaphoreState.Has
    rw [sent other, restQueue, queue]
    grind
  have hasOp : (state.semaphore name).Has op := .inr (by simp [queue])
  apply tracked.replace rfl (Nat.le_succ _)
  · rw [waiting, ← reqId]
    exact tracked.indexes.insert name next
  · refine ⟨fun first second => ?_, fun first second => ?_, fun other => ?_, fun other member => ?_, ?_,
      restQueue ▸ distinct.2, fun count => (cell.covered count).trans ?_⟩
    · have single := cell.single
      rw [has, has]
      grind
    · have unique := cell.unique first second
      have freshFirst := fresh first
      have freshSecond := fresh second
      rw [sent, sent]
      grind
    · have bounded := cell.sent other
      rw [sent]
      grind
    · exact cell.queued other (by simp [queue, restQueue ▸ member])
    · rw [waiting]
      exact nodup_cons.mpr ⟨fun member => fresh next (.inl member) rfl, cell.waiting⟩
    · simp only [has]
      grind
  · exact fun _ _ _ => Iff.rfl

def State.enqueue (state : State) (name : String) (op : SemaphoreOp) : State :=
  { state.withPromise (.semaphore name op.number) with
    semaphores := state.semaphores.insert name
      { state.semaphore name with opQueue := (state.semaphore name).opQueue ++ [op] } }

theorem Tracked.enqueue (fresh : .semaphore name op.number ∉ state.promises)
    (unsent : op.reqId = 0) : Tracked (state.enqueue name op) := by
  have cell := tracked.cells name
  have unknown : ∀ other, (state.semaphore name).Has other → other.number ≠ op.number :=
    fun other has same => fresh (same ▸ tracked.held has)
  have has : ∀ other, ({ state.semaphore name with
      opQueue := (state.semaphore name).opQueue ++ [op] } : SemaphoreState).Has other ↔
        (state.semaphore name).Has other ∨ other = op := by
    intro other
    simp only [SemaphoreState.Has, mem_append, mem_singleton]
    exact or_assoc.symm
  refine tracked.replace rfl (Nat.le_refl _) ?_ ?_ ?_
  · show Indexes _ (Function.update state.waits name (state.waits name))
    rw [Function.update_eq_self]
    exact tracked.indexes
  · refine { cell with
        single := fun first second => ?_
        queued := fun other member => ?_
        queue := ?_
        covered := fun number => ?_ }
    · have single := cell.single first second
      grind
    · rcases mem_append.mp member with old | new
      · exact cell.queued other old
      · rw [mem_singleton.mp new, unsent]
    · refine nodup_append.mpr ⟨cell.queue, by simp, fun first member second isOp same => ?_⟩
      rw [mem_singleton.mp isOp] at same
      exact unknown first (.inr member) (same ▸ rfl)
    · have covered := cell.covered number
      simp only [State.enqueue, State.withPromise]
      grind
  · intro other number differ
    simp [State.enqueue, State.withPromise, differ]

def State.processQueue (state : State) (name : String) : State :=
  match (state.semaphore name).opQueue,
    (state.semaphore name).lastSentOp.isNone && state.isWriteAllowed with
  | op :: rest, true => state.sendNext name op rest
  | _, _ => state

theorem Turned.processQueue (accounted : Accounted state)
    (replayed : state.isWriteAllowed = true → (state.semaphore name).Replayed state.noticed) :
    Turned name state (state.processQueue name) := by
  unfold State.processQueue
  split
  · rename_i op rest queue ready
    obtain ⟨free, allowed⟩ := Bool.and_eq_true_iff.mp ready
    have isFree := Option.isNone_iff_eq_none.mp free
    have semaphore := @State.semaphore_insert state (state.sendNext name op rest) name _ rfl
    refine ⟨⟨tracked.sendNext isFree queue, ⟨accounted.given, accounted.bounded, accounted.settled⟩, rfl, rfl,
      ⟨Nat.le_succ _, Nat.le_refl _⟩, fun _ => .rfl, fun _ => id⟩,
      fun other differ => (semaphore other).trans (if_neg differ), .inl ⟨?_, allowed⟩⟩
    rw [semaphore name, if_pos rfl]
    have popped : ({ state.semaphore name with opQueue := rest } : SemaphoreState).Replayed state.noticed :=
      { replayed allowed with }
    exact popped.send isFree
  · exact .refl tracked accounted

end

theorem Turned.queue (turned : Turned name state middle)
    (replayed : state.isWriteAllowed = true → (state.semaphore name).Replayed state.noticed) :
    Turned name state (middle.processQueue name) :=
  turned.trans (.processQueue turned.tracked turned.accounted fun allowed =>
    turned.replayed (replayed (turned.allowed.mp allowed)))

theorem Turned.erase (turned : Turned name state middle) (empty : middle.semaphore name = {}) :
    Turned name state { middle with semaphores := middle.semaphores.erase name } := by
  have semaphore : ∀ other,
      State.semaphore { middle with semaphores := middle.semaphores.erase name } other =
        middle.semaphore other := by
    intro other
    unfold State.semaphore at empty ⊢
    by_cases same : other = name
    · simp [same, empty]
    · simp [same]
  have tracked := turned.tracked.congr (turned.tracked.names.erase name) semaphore rfl (Nat.le_refl _)
    fun _ _ => .rfl
  exact turned.trans ⟨⟨tracked, { turned.accounted with }, rfl, rfl, ⟨Nat.le_refl _, Nat.le_refl _⟩,
    fun _ => .rfl, fun _ => id⟩, fun other _ => semaphore other,
    .inr ⟨congrArg SemaphoreState.waitingOps (semaphore name), fun replayed => semaphore name ▸ replayed⟩⟩

end YdbSdk.Coordination
