import YdbSdk.Coordination.Session

namespace YdbSdk.Coordination

open YdbSdk.Control YdbSdk.Data

/-! # The operations of the semaphores

An operation can be the last one sent, the last one acknowledged, one that waits for its
result and one of the queue.  Its promise is in it as long as the semaphore has it in one of
these places.
-/

namespace SemaphoreState

variable {sem : SemaphoreState} {op : SemaphoreOp} {noticed : List Nat}

def Sent (sem : SemaphoreState) (op : SemaphoreOp) : Prop :=
  op ∈ sem.waitingOps ∨ sem.lastSentOp = some op ∨ sem.lastAckedOp = some op

def Has (sem : SemaphoreState) (op : SemaphoreOp) : Prop := sem.Sent op ∨ op ∈ sem.opQueue

theorem mem_failed : op ∈ sem.failed ↔ sem.Has op := by
  unfold failed Has Sent
  by_cases waits : op ∈ sem.waitingOps
  · simp [waits]
  · have sent : some op = sem.lastSentOp.filter (· ∉ sem.waitingOps) ↔ sem.lastSentOp = some op := by
      rw [eq_comm]
      simp [waits]
    simp only [List.mem_append, Option.mem_toList,
      Option.filter_eq_some_iff]
    grind

def send (sem : SemaphoreState) (op : SemaphoreOp) : SemaphoreState :=
  { sem with waitingOps := op :: sem.waitingOps, lastSentOp := some op }

/-- The semaphore after its operations were sent again on this connection: what is waited for
was sent or acknowledged on it, and the last acknowledged operation waits unless a later one
is to be confirmed first. -/
structure Replayed (noticed : List Nat) (sem : SemaphoreState) : Prop where
  sent : ∀ op, sem.lastSentOp = some op → op ∈ sem.waitingOps
  calm : sem.lastSentOp = none → sem.restoring = true → sem.lastAckedOp = none
  alone : sem.restoring = true → ∀ op ∈ sem.waitingOps, sem.lastSentOp = some op
  backed : sem.restoring = false → ∀ op, sem.lastAckedOp = some op → op ∈ sem.waitingOps
  noticed : ∀ op ∈ sem.waitingOps, sem.lastSentOp = some op ∨ op.reqId ∈ noticed

theorem replayed_empty : Replayed noticed {} := by
  constructor <;> simp

theorem Replayed.mono (replayed : sem.Replayed noticed)
    (grown : ∀ reqId ∈ noticed, reqId ∈ later) : sem.Replayed later :=
  { replayed with noticed := fun op member => (replayed.noticed op member).imp_right (grown _) }

theorem Replayed.send (replayed : sem.Replayed noticed) (free : sem.lastSentOp = none) :
    (sem.send op).Replayed noticed := by
  have alone := replayed.alone
  have backed := replayed.backed
  have noticedOps := replayed.noticed
  constructor <;> simp only [SemaphoreState.send] <;> grind

def superseded (sem : SemaphoreState) (op : SemaphoreOp) : Option SemaphoreOp :=
  sem.lastAckedOp.filter fun acked => sem.restoring && acked ≠ op

theorem superseded_eq_some : sem.superseded op = some acked ↔
    sem.lastAckedOp = some acked ∧ sem.restoring = true ∧ acked ≠ op := by
  simp [superseded]

def without (sem : SemaphoreState) (op : SemaphoreOp) : SemaphoreState :=
  { sem with
    waitingOps := sem.waitingOps.filter fun other => other.reqId ≠ op.reqId
    lastSentOp := if sem.lastSentOp = some op then none else sem.lastSentOp
    lastAckedOp := if sem.lastAckedOp = some op then none else sem.lastAckedOp }

/-! ## An operation that was answered -/

section

variable (unique : ∀ other, sem.Sent other → other.reqId = op.reqId → other = op)
include unique

theorem sent_without (other : SemaphoreOp) :
    (sem.without op).Sent other ↔ sem.Sent other ∧ other ≠ op := by
  have waits : other ∈ sem.waitingOps → other.reqId = op.reqId → other = op :=
    fun member => unique other (.inl member)
  simp only [Sent, without]
  grind

theorem Replayed.answered (replayed : sem.Replayed noticed) {acked : Option SemaphoreOp}
    (dropped : acked = none ∨ acked = (sem.without op).lastAckedOp ∧ sem.restoring = false) :
    ({ sem.without op with lastAckedOp := acked, restoring := false } : SemaphoreState).Replayed
      noticed := by
  have sent := replayed.sent
  have backed := replayed.backed
  have noticedOps := replayed.noticed
  have waitsUnique : ∀ other ∈ sem.waitingOps, other.reqId = op.reqId → other = op :=
    fun other member => unique other (.inl member)
  simp only [without] at dropped
  constructor <;> simp only [without] <;> grind

theorem Replayed.sent_without_acked (replayed : sem.Replayed noticed)
    (isSent : sem.lastSentOp = some op) (other : SemaphoreOp) :
    ({ sem.without op with lastAckedOp := none } : SemaphoreState).Sent other ↔
      (sem.without op).Sent other ∧ sem.superseded op ≠ some other := by
  have ackedUnique : ∀ other, sem.lastAckedOp = some other → other.reqId = op.reqId → other = op :=
    fun other isAcked => unique other (.inr (.inr isAcked))
  have backed := replayed.backed
  have alone := replayed.alone
  simp only [Sent, without, ne_eq, superseded_eq_some]
  cases restoring : sem.restoring with
  | false => grind
  | true => grind

end

theorem Replayed.resend {acked : SemaphoreOp} (replayed : sem.Replayed noticed)
    (isSent : sem.lastSentOp = some op) (isAcked : sem.lastAckedOp = some acked)
    (restoring : sem.restoring = true) :
    (sem.without op).waitingOps = [] ∧
      ({ (sem.without op).send acked with restoring := false } : SemaphoreState).Replayed noticed := by
  have alone := replayed.alone restoring
  have empty : (sem.without op).waitingOps = [] := by
    simp only [without, List.filter_eq_nil_iff]
    grind
  refine ⟨empty, ?_⟩
  constructor <;> simp only [SemaphoreState.send, without] <;> grind

def acknowledge (sem : SemaphoreState) (op : SemaphoreOp) : SemaphoreState :=
  { sem with lastAckedOp := some op, lastSentOp := none, restoring := false }

theorem Replayed.acknowledge (replayed : sem.Replayed noticed) (isSent : sem.lastSentOp = some op) :
    (sem.acknowledge op).Replayed (noticed ++ [op.reqId]) ∧
      ∀ other, (sem.acknowledge op).Sent other ↔ sem.Sent other ∧ sem.superseded op ≠ some other := by
  have waits := replayed.sent op isSent
  have backed := replayed.backed
  have alone := replayed.alone
  have noticedOps := replayed.noticed
  constructor
  · constructor <;> simp only [SemaphoreState.acknowledge] <;> grind
  · simp only [Sent, SemaphoreState.acknowledge, ne_eq, superseded_eq_some]
    cases restoring : sem.restoring with
    | false => grind
    | true => grind

theorem eq_empty (empty : sem.isEmpty = true) (restored : sem.restoring = false) : sem = {} := by
  obtain ⟨lastSent, lastAcked, waiting, queue, restoring⟩ := sem
  simp_all [isEmpty]

end SemaphoreState

end YdbSdk.Coordination
