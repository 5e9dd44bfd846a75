import YdbSdk.Coordination.Cells

namespace YdbSdk.Coordination

open YdbSdk.Control YdbSdk.Data Code List

/-! # The answers to semaphore requests -/

variable {state middle after : State} {name : String} {sem : SemaphoreState} {op : SemaphoreOp}
  {reqId : Nat} {status : Status} {value : Bool} {dropped : Option SemaphoreOp}
  {index : Assoc Nat String}

def State.abort (state : State) (name : String) (dropped : Option SemaphoreOp) : State :=
  state.fulfilAll (dropped.toList.map fun op => .semaphore name op.number) .aborted

@[simp] theorem State.abort_semaphore :
    (state.abort name dropped).semaphore other = state.semaphore other := rfl

theorem supersede_wp
    (held : ∀ acked, (state.semaphore name).superseded op = some acked →
      .semaphore name acked.number ∈ state.promises) :
    (supersede name op).wp contract state ↔
      contract.returns () (state.abort name ((state.semaphore name).superseded op)) := by
  have nothing : state.abort name none = state := by simp [State.abort, State.fulfilAll]
  simp only [supersede, wp_rules]
  unfold SemaphoreState.superseded at held ⊢
  cases acked : (state.semaphore name).lastAckedOp with
  | none => simp [nothing]
  | some last =>
    rw [acked, Option.filter_some] at held
    rw [Option.filter_some]
    cases replaced : (state.semaphore name).restoring && decide (last ≠ op) with
    | false =>
      simp only [replaced]
      simp [nothing]
    | true =>
      have isHeld := held last (by rw [replaced]; rfl)
      simp only [replaced, wp_rules, fulfilIfAny_wp isHeld]
      simp [State.abort, State.fulfilAll, State.fulfil]

/-! ## Requests -/

def State.put (state : State) (name : String) (sem : SemaphoreState) : State :=
  { state with semaphores := state.semaphores.insert name sem }

@[simp] theorem State.semaphore_put :
    (state.put name sem).semaphore other = if other = name then sem else state.semaphore other :=
  State.semaphore_insert rfl other

@[simp] theorem setSemaphore_wp :
    (setSemaphore name sem).wp contract state ↔ contract.returns () (state.put name sem) :=
  wp_update _

def State.rewrite (state : State) (name : String) (dropped : Option SemaphoreOp) (sem : SemaphoreState)
    (index : Assoc Nat String) : State :=
  { state with
    semaphores := state.semaphores.insert name sem
    semaphoreByReqId := index
    promises := (state.abort name dropped).promises
    results := (state.abort name dropped).results }

theorem State.rewrite_none : state.rewrite name none sem index =
    { state.put name sem with semaphoreByReqId := index } := by
  simp [State.rewrite, State.put, State.abort, State.fulfilAll]

@[simp] theorem State.rewrite_semaphore : (state.rewrite name dropped sem index).semaphore name = sem :=
  State.semaphore_put.trans (if_pos rfl)

@[simp] theorem State.rewrite_put (next : SemaphoreState) :
    (state.rewrite name dropped sem index).put name next = state.rewrite name dropped next index := by
  simp [State.rewrite, State.put]

theorem State.rewrite_rewrite (next : SemaphoreState) (later : Assoc Nat String) :
    (state.rewrite name none sem index).rewrite name none next later =
      state.rewrite name none next later := by
  simp [State.rewrite, State.abort, State.fulfilAll]

@[simp] theorem State.rewrite_abort_put (next : SemaphoreState) :
    ((state.rewrite name none sem index).abort name dropped).put name next =
      state.rewrite name dropped next index := by
  simp [State.rewrite, State.put, State.abort, State.fulfilAll]

theorem SemaphoreState.waiting_eq_none (absent : ∀ op ∈ sem.waitingOps, op.reqId ≠ reqId) :
    sem.waiting reqId = none := by
  apply List.find?_eq_none.mpr
  intro op member
  simpa using absent op member

theorem doSemaphoreSendOp_wp {contract : Contract Empty Assertion State Unit}
    (allowed : state.isWriteAllowed = true) (positive : 0 < op.reqId)
    (absent : ∀ other ∈ (state.semaphore name).waitingOps, other.reqId ≠ op.reqId) :
    (doSemaphoreSendOp name op).wp contract state ↔ contract.returns ()
      (state.rewrite name none ((state.semaphore name).send op)
        (state.semaphoreByReqId.insert op.reqId name)) := by
  have free := SemaphoreState.waiting_eq_none absent
  simp only [doSemaphoreSendOp, wp_rules, allowed, positive, free, State.rewrite_none]
  simp [State.put, SemaphoreState.send]

theorem doSemaphoreProcessQueue_wp {contract : Contract Empty Assertion State Unit}
    (positive : 0 < state.nextReqId)
    (below : ∀ other ∈ (state.semaphore name).waitingOps, other.reqId < state.nextReqId) :
    (doSemaphoreProcessQueue name).wp contract state ↔
      contract.returns () (state.processQueue name) := by
  simp only [doSemaphoreProcessQueue, wp_rules, State.processQueue]
  cases queue : (state.semaphore name).opQueue with
  | nil => simp
  | cons op rest =>
    cases ready : (state.semaphore name).lastSentOp.isNone && state.isWriteAllowed with
    | false => simp
    | true =>
      have allowed : state.isWriteAllowed = true := (Bool.and_eq_true_iff.mp ready).2
      let popped : State :=
        { state.put name { state.semaphore name with opQueue := rest } with
          nextReqId := state.nextReqId + 1
          numbered := state.numbered ++ [(name, { op with reqId := state.nextReqId })] }
      have semaphore : popped.semaphore name = { state.semaphore name with opQueue := rest } :=
        State.semaphore_put.trans (if_pos rfl)
      have sending := @doSemaphoreSendOp_wp popped name { op with reqId := state.nextReqId }
        contract allowed positive
        (by rw [semaphore]; exact fun other member => Nat.ne_of_lt (below other member))
      simp only [wp_rules, true_imp_iff]
      refine (and_iff_left (by simp)).trans (sending.trans ?_)
      rw [semaphore, State.rewrite_none]
      simp [popped, State.put, State.sendNext]

/-! ## Results -/

def State.tell (state : State) (name : String) (op : SemaphoreOp) (status : Status) (value : Bool) : State :=
  { state with
    semaphores := state.semaphores.insert name { state.semaphore name with restoring := false }
    promises := state.promises.erase (.semaphore name op.number)
    results := state.results ++ [(.semaphore name op.number, status, value)] }

theorem State.tell_semaphore : (state.tell name op status value).semaphore name =
    { state.semaphore name with restoring := false } :=
  (State.semaphore_insert rfl name).trans (if_pos rfl)

theorem State.processQueue_promises : (state.processQueue name).promises = state.promises := by
  unfold State.processQueue
  split <;> rfl

theorem State.processQueue_tell :
    (state.processQueue name).tell name op status value =
      (state.tell name op status value).processQueue name := by
  have allowed : (state.tell name op status value).isWriteAllowed = state.isWriteAllowed := rfl
  unfold State.processQueue
  rw [State.tell_semaphore, allowed]
  cases queue : (state.semaphore name).opQueue with
  | nil => rfl
  | cons next rest =>
    cases ready : (state.semaphore name).lastSentOp.isNone && state.isWriteAllowed with
    | false => simp
    | true =>
      have sent := @State.semaphore_insert state (state.sendNext name next rest) name _ rfl name
      show State.tell (state.sendNext name next rest) name op status value =
        .sendNext (state.tell name op status value) name next rest
      unfold State.tell
      simp [State.sendNext, SemaphoreState.send, State.semaphore]

theorem Turned.rewrite (tracked : Tracked state) (accounted : Accounted state)
    (allowed : state.isWriteAllowed = true)
    (indexes : Indexes index (Function.update state.waits name sem.waitingOps))
    (waiting : sem.waitingOps.Nodup) (queue : sem.opQueue = (state.semaphore name).opQueue)
    (sent : ∀ op, sem.Sent op ↔ (state.semaphore name).Sent op)
    (replayed : sem.Replayed state.noticed) : Turned name state (state.rewrite name none sem index) := by
  have same := @Accounted.fulfilAll _ .aborted _ accounted nodup_nil nofun
  refine @Turned.change _ _ _ _ tracked [] allowed rfl ⟨same.given, same.bounded, same.settled⟩ rfl indexes
    waiting queue nofun (fun op => (sent op).trans (and_iff_left nofun).symm) (fun promise => ?_) replayed
  exact (and_iff_left nofun).symm

/-- The operation has left its semaphore, and its result is to be given. -/
structure Settled (name : String) (op : SemaphoreOp) (status : Status) (value : Bool)
    (before middle : State) : Prop where
  held : .semaphore name op.number ∈ middle.promises
  turned : Turned name before (middle.tell name op status value)

theorem reportOp_turned (settled : Settled name op status value state middle) :
    (reportOp name op status value).wp (.keeping (Turned name state) (fun _ => False)) middle := by
  simp only [reportOp, wp_rules]
  apply (fulfilIfAny_wp (by exact settled.held)).mpr
  refine ⟨fun empty => settled.turned.erase (SemaphoreState.eq_empty empty ?_), fun _ => settled.turned⟩
  exact congrArg SemaphoreState.restoring (@State.tell_semaphore middle name op status value)

section

variable (tracked : Tracked state) (accounted : Accounted state)
  (allowed : state.isWriteAllowed = true) (waits : op ∈ state.waits name)
include tracked waits

theorem Tracked.unique_waits (other : SemaphoreOp) (sent : (state.semaphore name).Sent other)
    (same : other.reqId = op.reqId) : other = op :=
  (tracked.cells name).unique other op sent (.inl waits) same

include accounted allowed

theorem Settled.answer (indexes : Indexes index (Function.update state.waits name sem.waitingOps))
    (waiting : sem.waitingOps.Nodup) (queue : sem.opQueue = (state.semaphore name).opQueue)
    (left : ∀ acked, dropped = some acked → (state.semaphore name).Sent acked ∧ acked ≠ op)
    (sent : ∀ other, sem.Sent other ↔
      ((state.semaphore name).Sent other ∧ other ≠ op) ∧ dropped ≠ some other)
    (replayed : ({ sem with restoring := false } : SemaphoreState).Replayed state.noticed) :
    Settled name op status value state (state.rewrite name dropped sem index) := by
  have sentOp : (state.semaphore name).Sent op := .inl waits
  have leaves : ∀ other ∈ op :: dropped.toList, (state.semaphore name).Sent other := by
    intro other member
    rcases mem_cons.mp member with same | isDropped
    · exact same ▸ sentOp
    · exact (left other (Option.mem_toList.mp isDropped)).1
  have heldDropped : ∀ promise ∈ dropped.toList.map fun op => OpPromise.semaphore name op.number,
      promise ∈ state.promises ∧ promise ≠ .semaphore name op.number := by
    intro promise member
    obtain ⟨acked, isDropped, isPromise⟩ := mem_map.mp member
    obtain ⟨isSent, differ⟩ := left acked (Option.mem_toList.mp isDropped)
    rw [← isPromise]
    refine ⟨tracked.held (.inl isSent), fun same => differ ?_⟩
    exact (tracked.cells name).single acked op (.inl isSent) (.inl sentOp) (OpPromise.semaphore.inj same).2
  have aborted : Accounted (state.abort name dropped) :=
    accounted.fulfilAll (by cases dropped <;> simp) fun promise member => (heldDropped promise member).1
  have held : .semaphore name op.number ∈ (state.abort name dropped).promises :=
    accounted.mem_fulfilAll.mpr ⟨tracked.held (.inl sentOp), fun member => (heldDropped _ member).2 rfl⟩
  have semaphores : ((state.rewrite name dropped sem index).tell name op status value).semaphores =
      state.semaphores.insert name { sem with restoring := false } := by
    simp [State.tell, State.rewrite, State.semaphore]
  have told := @Accounted.fulfil _ _ status value aborted held
  refine ⟨held, Turned.change tracked allowed rfl ⟨told.given, told.bounded, told.settled⟩ semaphores
    indexes waiting queue leaves (fun other => (sent other).trans ?_) (fun promise => ?_) replayed⟩
  · simp only [mem_cons, Option.mem_toList]
    grind
  · refine (@Accounted.mem_fulfil _ _ _ status value aborted).trans
      ((and_congr_left fun _ => accounted.mem_fulfilAll).trans ?_)
    simp only [mem_map, mem_cons]
    grind

variable (replayed : (state.semaphore name).Replayed state.noticed)
include replayed

theorem processQueue_settled {acked : Option SemaphoreOp}
    (cleared : acked = none ∨ acked = ((state.semaphore name).without op).lastAckedOp ∧
      (state.semaphore name).restoring = false)
    (left : ∀ acked, dropped = some acked → (state.semaphore name).Sent acked ∧ acked ≠ op)
    (sent : ∀ other, ({ (state.semaphore name).without op with
        lastAckedOp := acked } : SemaphoreState).Sent other ↔
      ((state.semaphore name).Sent other ∧ other ≠ op) ∧ dropped ≠ some other) :
    (doSemaphoreProcessQueue name).wp (.keeping (Settled name op status value state) (fun _ => False))
      (state.rewrite name dropped { (state.semaphore name).without op with lastAckedOp := acked }
        (state.semaphoreByReqId.erase op.reqId)) := by
  have settled : Settled name op status value state (state.rewrite name dropped
      { (state.semaphore name).without op with lastAckedOp := acked }
        (state.semaphoreByReqId.erase op.reqId)) :=
    .answer tracked accounted allowed waits (tracked.indexes.erase name op.reqId)
      ((tracked.cells name).waiting.filter _) rfl left sent
      (replayed.answered (tracked.unique_waits waits) cleared)
  rw [doSemaphoreProcessQueue_wp (by exact tracked.positive)]
  · refine ⟨?_, ?_⟩
    · rw [State.processQueue_promises]
      exact settled.held
    · rw [State.processQueue_tell]
      exact settled.turned.queue fun _ => replayed
  · intro other member
    rw [State.rewrite_semaphore] at member
    exact ((tracked.cells name).sent other (.inl (mem_of_mem_filter member))).2

theorem settleLastSent_settled {isError : Bool} (isSent : (state.semaphore name).lastSentOp = some op) :
    (settleLastSent name op isError).wp (.keeping (Settled name op status value state) (fun _ => False))
      (state.rewrite name none { state.semaphore name with
        waitingOps := (state.semaphore name).waitingOps.filter fun other => other.reqId ≠ op.reqId }
        (state.semaphoreByReqId.erase op.reqId)) := by
  have unique := tracked.unique_waits waits
  have cleared (acked : Option SemaphoreOp) :
      ({ state.semaphore name with
        waitingOps := (state.semaphore name).waitingOps.filter fun other => other.reqId ≠ op.reqId
        lastSentOp := none
        lastAckedOp := acked } : SemaphoreState) =
      { (state.semaphore name).without op with lastAckedOp := acked } := by
    simp [SemaphoreState.without, isSent]
  simp only [settleLastSent, wp_rules, State.rewrite_semaphore, setSemaphore_wp, State.rewrite_put]
  refine ⟨fun _ => ?_, fun keeps => ?_⟩
  · have held : ∀ acked, (state.semaphore name).superseded op = some acked →
        (state.semaphore name).Sent acked ∧ acked ≠ op := by
      intro acked isDropped
      obtain ⟨isAcked, -, differ⟩ := SemaphoreState.superseded_eq_some.mp isDropped
      exact ⟨.inr (.inr isAcked), differ⟩
    have dropped : SemaphoreState.superseded { state.semaphore name with
        waitingOps := (state.semaphore name).waitingOps.filter fun other => other.reqId ≠ op.reqId
        lastSentOp := none } op = (state.semaphore name).superseded op := rfl
    rw [supersede_wp]
    · simp only [State.abort_semaphore, State.rewrite_semaphore, State.semaphore_put, if_true, dropped]
      simp only [cleared, State.rewrite_abort_put]
      split
      · contradiction
      · apply processQueue_settled tracked accounted allowed waits replayed (.inl rfl) held
        intro other
        rw [replayed.sent_without_acked unique isSent, SemaphoreState.sent_without unique]
    · intro acked isDropped
      rw [State.rewrite_semaphore, dropped] at isDropped
      exact tracked.held (.inl (held acked isDropped).1)
  · have error : (state.semaphore name).lastAckedOp ≠ some op := by
      simp only [Bool.or_eq_false_iff, decide_eq_false_iff_not] at keeps
      exact keeps.1
    have kept : ({ state.semaphore name with
        waitingOps := (state.semaphore name).waitingOps.filter fun other => other.reqId ≠ op.reqId
        lastSentOp := none } : SemaphoreState) = (state.semaphore name).without op := by
      simp [SemaphoreState.without, isSent, error]
    rw [kept]
    split
    · rename_i acked restoring isAcked
      obtain ⟨unawaited, resent⟩ := replayed.resend isSent isAcked restoring
      have indexes := (tracked.indexes.erase name op.reqId).insert name acked
      rw [Function.update_idem, Function.update_self] at indexes
      simp only [wp_rules]
      refine ⟨fun _ => ?_, fun denied => absurd (allowed.symm.trans denied) (by simp)⟩
      rw [doSemaphoreSendOp_wp (by exact allowed) ((tracked.cells name).sent acked (.inr (.inr isAcked))).1
        (by rw [State.rewrite_semaphore, unawaited]; exact fun _ => by simp), State.rewrite_semaphore,
        State.rewrite_rewrite]
      apply Settled.answer tracked accounted allowed waits indexes
      · show (acked :: ((state.semaphore name).without op).waitingOps).Nodup
        simp [unawaited]
      · rfl
      · simp
      · intro other
        have left := SemaphoreState.sent_without unique other
        have isLast : ((state.semaphore name).without op).lastAckedOp = some acked :=
          (if_neg error).trans isAcked
        have noneSent : ((state.semaphore name).without op).lastSentOp = none := if_pos isSent
        simp only [SemaphoreState.Sent, SemaphoreState.send] at left ⊢
        grind
      · exact resent
    · rename_i unrestoring
      refine @processQueue_settled _ _ _ _ _ none tracked accounted allowed waits replayed
        ((state.semaphore name).without op).lastAckedOp ?_ (by simp) fun other => ?_
      · cases acked : (state.semaphore name).lastAckedOp with
        | none => exact .inl (by simp [SemaphoreState.without, acked])
        | some last => exact .inr ⟨rfl, Bool.eq_false_iff.mpr fun isTrue => unrestoring last isTrue acked⟩
      · show ((state.semaphore name).without op).Sent other ↔ _
        rw [SemaphoreState.sent_without unique]
        simp

theorem settleOp_settled {isError : Bool} :
    (settleOp name op isError).wp (.keeping (Settled name op status value state) (fun _ => False))
      (state.rewrite name none { state.semaphore name with
        waitingOps := (state.semaphore name).waitingOps.filter fun other => other.reqId ≠ op.reqId }
        (state.semaphoreByReqId.erase op.reqId)) := by
  have unique := tracked.unique_waits waits
  simp only [settleOp, wp_rules, State.rewrite_semaphore, setSemaphore_wp, State.rewrite_put]
  refine ⟨settleLastSent_settled tracked accounted allowed waits replayed, fun unsent => ?_⟩
  have restored : (state.semaphore name).restoring = false := by
    cases restoring : (state.semaphore name).restoring with
    | false => rfl
    | true => exact absurd (replayed.alone restoring op waits) unsent
  have settled : Settled name op status value state (state.rewrite name none
      ((state.semaphore name).without op) (state.semaphoreByReqId.erase op.reqId)) := by
    refine .answer tracked accounted allowed waits (tracked.indexes.erase name op.reqId)
      ((tracked.cells name).waiting.filter _) rfl (by simp) (fun other => ?_)
      (replayed.answered unique (.inr ⟨rfl, restored⟩))
    rw [SemaphoreState.sent_without unique]
    simp
  refine ⟨fun acked => ?_, fun unacked => ?_⟩
  · have same : ({ state.semaphore name with
        waitingOps := (state.semaphore name).waitingOps.filter fun other => other.reqId ≠ op.reqId
        lastAckedOp := none } : SemaphoreState) = (state.semaphore name).without op := by
      simp [SemaphoreState.without, unsent, of_decide_eq_true acked]
    rw [same]
    exact settled
  · have same : ({ state.semaphore name with
        waitingOps := (state.semaphore name).waitingOps.filter fun other => other.reqId ≠ op.reqId } :
          SemaphoreState) = (state.semaphore name).without op := by
      simp [SemaphoreState.without, unsent, of_decide_eq_false unacked]
    rw [same]
    exact settled

end

theorem Tracked.waiting_eq_some (tracked : Tracked state) (waits : op ∈ state.waits name) :
    (state.semaphore name).waiting op.reqId = some op := by
  unfold SemaphoreState.waiting
  cases found : (state.semaphore name).waitingOps.find? (·.reqId = op.reqId) with
  | none =>
    have absent := List.find?_eq_none.mp found op waits
    simp at absent
  | some other =>
    have sameReqId : other.reqId = op.reqId := by simpa using List.find?_some found
    rw [tracked.unique_waits waits other (.inl (mem_of_find?_eq_some found)) sameReqId]

/-- Where the requests that wait can be answered. -/
def Answerable (state : State) : Prop :=
  ∀ name, state.waits name ≠ [] →
    state.isWriteAllowed = true ∧ (state.semaphore name).Replayed state.noticed

section

variable (tracked : Tracked state) (accounted : Accounted state) (answerable : Answerable state)
include tracked accounted answerable

theorem doSemaphoreProcessResult_turned {opType : OpType}
    (typed : ∀ actual, state.waitingType reqId = some actual → actual = opType) :
    (doSemaphoreProcessResult reqId opType status value).wp
      (.keeping (fun after => ∃ name, Turned name state after) (fun _ => False)) state := by
  simp only [doSemaphoreProcessResult, wp_rules]
  cases found : state.semaphoreByReqId.find reqId with
  | none => exact ⟨"", .refl tracked accounted⟩
  | some name =>
    obtain ⟨op, waits, number⟩ := tracked.indexes reqId name found
    have isWaiting := number ▸ tracked.waiting_eq_some waits
    obtain ⟨allowed, replayed⟩ := answerable name (ne_nil_of_mem waits)
    have sameType : op.opType = opType := by
      apply typed
      simp [State.waitingType, found, isWaiting]
    simp only [wp_rules, isWaiting]
    refine ⟨fun _ => ?_, fun differ => absurd sameType (of_decide_eq_false differ)⟩
    rw [← number]
    have settles := @settleOp_settled _ _ _ status value tracked accounted allowed waits replayed
      (status ≠ .success)
    rw [State.rewrite_none] at settles
    refine wp_mono settles (fun _ middle settled => ?_) (by simp)
    exact wp_mono (reportOp_turned settled) (fun _ after turned => ⟨name, turned⟩) (by simp)

theorem acquireSemaphorePending_turned (unnoticed : reqId ∉ state.noticed)
    (typed : ∀ actual, state.waitingType reqId = some actual → actual = .acquire) :
    (acquireSemaphorePending reqId).wp
      (.keeping (fun after => ∃ name, Turned name state after) (fun _ => False)) state := by
  have marks (name : String) : Turned name state { state with noticed := state.noticed ++ [reqId] } :=
    { Operated.refl tracked accounted with
      tracked := { tracked with }
      accounted := { accounted with }
      noticed := fun _ => mem_append_left _
      others := fun _ _ => rfl
      own := .inr ⟨rfl, fun replayed => replayed.mono fun _ => mem_append_left _⟩ }
  simp only [acquireSemaphorePending, wp_rules]
  cases found : state.semaphoreByReqId.find reqId with
  | none => exact ⟨"", marks ""⟩
  | some name =>
    obtain ⟨op, waits, number⟩ := tracked.indexes reqId name found
    have isWaiting := number ▸ tracked.waiting_eq_some waits
    obtain ⟨allowed, replayed⟩ := answerable name (ne_nil_of_mem waits)
    have isAcquire : op.opType = .acquire := by
      apply typed
      simp [State.waitingType, found, isWaiting]
    have isSent : (state.semaphore name).lastSentOp = some op :=
      (replayed.noticed op waits).resolve_right fun isNoticed => unnoticed (number ▸ isNoticed)
    obtain ⟨acknowledged, stillSent⟩ := replayed.acknowledge isSent
    have marked := marks name
    have held : ∀ acked, (state.semaphore name).superseded op = some acked →
        (state.semaphore name).Sent acked :=
      fun acked dropped => .inr (.inr (SemaphoreState.superseded_eq_some.mp dropped).1)
    have promised : ∀ promise ∈ ((state.semaphore name).superseded op).toList.map
        fun op => OpPromise.semaphore name op.number, promise ∈ state.promises := by
      intro promise member
      obtain ⟨acked, isDropped, isPromise⟩ := mem_map.mp member
      exact isPromise ▸ tracked.held (.inl (held acked (Option.mem_toList.mp isDropped)))
    have aborted : Accounted (State.abort { state with noticed := state.noticed ++ [reqId] } name
        ((state.semaphore name).superseded op)) :=
      marked.accounted.fulfilAll (by cases (state.semaphore name).superseded op <;> simp) promised
    -- The queue goes on, whether or not the acquire was accepted before.
    have goesOn (accepted : List Nat) : (doSemaphoreProcessQueue name).wp
        (.keeping (fun after => ∃ name, Turned name state after) (fun _ => False))
        { (State.abort { state with noticed := state.noticed ++ [reqId] } name
            ((state.semaphore name).superseded op)).put name ((state.semaphore name).acknowledge op) with
          accepted := accepted } := by
      have turned : Turned name state { (State.abort { state with noticed := state.noticed ++ [reqId] }
          name ((state.semaphore name).superseded op)).put name ((state.semaphore name).acknowledge op) with
            accepted := accepted } := by
        apply marked.trans
        refine Turned.change marked.tracked allowed rfl ⟨aborted.given, aborted.bounded, aborted.settled⟩ rfl
          ?_ (tracked.cells name).waiting rfl (fun acked dropped => held acked (Option.mem_toList.mp dropped))
          (fun other => (stillSent other).trans ?_) (fun promise => ?_) (number ▸ acknowledged)
        · show Indexes _ (Function.update state.waits name (state.waits name))
          rw [Function.update_eq_self]
          exact tracked.indexes
        · exact and_congr_right fun _ => not_congr Option.mem_toList.symm
        · refine (@Accounted.mem_fulfilAll _ _ .aborted _ marked.accounted).trans ?_
          simp only [mem_map]
          grind
      rw [doSemaphoreProcessQueue_wp (by exact tracked.positive)]
      · exact ⟨name, turned.queue fun _ => replayed⟩
      · intro other member
        exact ((turned.tracked.cells name).sent other (.inl member)).2
    have isLast : State.semaphore { state with noticed := state.noticed ++ [reqId] } name =
        state.semaphore name := rfl
    simp only [wp_rules, isLast, isSent, number, isAcquire]
    refine ⟨fun _ => ?_, by simp⟩
    rw [supersede_wp fun acked dropped => by exact tracked.held (.inl (held acked dropped))]
    exact ⟨fun _ => goesOn _, fun _ => goesOn _⟩

end

end YdbSdk.Coordination
