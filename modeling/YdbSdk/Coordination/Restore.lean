import YdbSdk.Coordination.Replay

namespace YdbSdk.Coordination

open YdbSdk.Control YdbSdk.Data List

/-! # Semaphore operations over several connections

An operation is enqueued once.  When a session is attached again, the last operation of each
semaphore is sent again; when a connection ends, the others that were acknowledged are aborted.
-/

variable {state after : State} {name : String} {sem : SemaphoreState} {op : SemaphoreOp}

theorem Turned.enqueue (tracked : Tracked state) (accounted : Accounted state)
    (numbered : op.number = state.nextNumber) (unsent : op.reqId = 0) :
    Turned name state (state.enqueue name op) := by
  have made := @Accounted.withPromise _ (.semaphore name op.number) accounted numbered
  have semaphore := @State.semaphore_insert state (state.enqueue name op) name _ rfl
  have own := semaphore name
  rw [if_pos rfl] at own
  refine ⟨⟨tracked.enqueue (accounted.fresh numbered) unsent, ⟨made.given, made.bounded, made.settled⟩, rfl,
    rfl, ⟨Nat.le_refl _, Nat.le_succ _⟩, fun number => ?_, fun _ => id⟩,
    fun other differ => (semaphore other).trans (if_neg differ), .inr ⟨?_, fun replayed => ?_⟩⟩
  · simp [State.enqueue, State.withPromise]
  · rw [State.waits, own]
    rfl
  · rw [own]
    exact { replayed with }

theorem doAcquireRelease_turned {opType : OpType} (tracked : Tracked state) (accounted : Accounted state)
    (isOpen : state.isClosed = false)
    (replayed : state.isWriteAllowed = true → (state.semaphore name).Replayed state.noticed) :
    (doAcquireRelease name opType).wp (.keeping (Turned name state) (fun _ => False)) state := by
  have turned : Turned name state (state.enqueue name ⟨state.nextNumber, opType, 0⟩) :=
    .enqueue tracked accounted rfl rfl
  simp only [doAcquireRelease, Code.wp_rules, isOpen]
  refine ⟨by simp, fun _ => (doSemaphoreProcessQueue_wp (by exact tracked.positive) ?_).mpr ?_⟩
  · intro other member
    exact ((turned.tracked.cells name).sent other (.inl member)).2
  · exact turned.queue replayed

theorem resendOp_turned (tracked : Tracked state) (accounted : Accounted state)
    (allowed : state.isWriteAllowed = true) (unsent : state.waits name = [])
    (held : (state.semaphore name).Sent op)
    (free : (state.semaphore name).lastSentOp = none ∨ (state.semaphore name).lastSentOp = some op) :
    (do
      doSemaphoreSendOp name op
      setSemaphore name { (← .get).semaphore name with restoring := true } : Session Unit).wp
      (.keeping (fun after => Turned name state after ∧ (after.semaphore name).Replayed after.noticed)
        (fun _ => False)) state := by
  have unawaited : (state.semaphore name).waitingOps = [] := unsent
  have resent : ({ (state.semaphore name).send op with restoring := true } : SemaphoreState).Replayed
      state.noticed := by
    constructor <;> simp only [SemaphoreState.send, unawaited] <;> simp
  simp only [Code.wp_rules]
  rw [doSemaphoreSendOp_wp allowed ((tracked.cells name).sent op held).1 (by simp [unawaited])]
  simp only [setSemaphore_wp, State.rewrite_semaphore, State.rewrite_put]
  refine ⟨.rewrite tracked accounted allowed (tracked.indexes.insert name op) ?_ rfl (fun other => ?_) resent,
    resent⟩
  · simp [SemaphoreState.send, unawaited]
  · simp only [SemaphoreState.Sent, SemaphoreState.send] at held ⊢
    grind

theorem restoreSemaphore_turned (tracked : Tracked state) (accounted : Accounted state)
    (allowed : state.isWriteAllowed = true) (unsent : state.waits name = []) :
    (restoreSemaphore name).wp
      (.keeping (fun after => Turned name state after ∧ (after.semaphore name).Replayed after.noticed)
        (fun _ => False)) state := by
  unfold restoreSemaphore
  rw [Code.wp_bind, Code.wp_get]
  dsimp only
  split
  · rename_i op sent
    exact resendOp_turned tracked accounted allowed unsent (.inr (.inl sent)) (.inr sent)
  · rename_i op free acked
    exact resendOp_turned tracked accounted allowed unsent (.inr (.inr acked)) (.inl free)
  · rename_i free unacked
    have unawaited : (state.semaphore name).waitingOps = [] := unsent
    have restored : ({ state.semaphore name with restoring := false } : SemaphoreState).Replayed
        state.noticed := by
      constructor <;> simp [unawaited, free, unacked]
    have turned : Turned name state (state.rewrite name none
        { state.semaphore name with restoring := false } state.semaphoreByReqId) := by
      refine .rewrite tracked accounted allowed ?_ (tracked.cells name).waiting rfl (fun _ => .rfl) restored
      show Indexes _ (Function.update state.waits name (state.waits name))
      rw [Function.update_eq_self]
      exact tracked.indexes
    rw [State.rewrite_none] at turned
    rw [Code.wp_bind]
    refine (doSemaphoreProcessQueue_wp (by exact tracked.positive) ?_).mpr ?_
    · intro other member
      exact ((turned.tracked.cells name).sent other (.inl member)).2
    · have own : ((state.put name { state.semaphore name with restoring := false }).semaphore name).Replayed
          state.noticed := by
        rw [State.semaphore_put, if_pos rfl]
        exact restored
      have queued := Turned.processQueue turned.tracked turned.accounted fun _ => own
      exact ⟨turned.trans queued, queued.replayed own⟩

theorem restoreSemaphores_operated (tracked : Tracked state) (accounted : Accounted state)
    (allowed : state.isWriteAllowed = true) (unsent : ∀ name, state.waits name = []) :
    (Code.forEach (state.semaphores.map Prod.fst) restoreSemaphore).wp
      (.keeping (fun after => Operated state after ∧ ∀ name, (after.semaphore name).Replayed after.noticed)
        (fun _ => False)) state := by
  apply Code.wp_forEach fun rest before => Operated state before ∧ rest.Nodup ∧
    (∀ name ∈ rest, before.waits name = []) ∧
    ∀ name, name ∉ rest → (before.semaphore name).Replayed before.noticed
  · refine ⟨.refl tracked accounted, pairwise_map.mpr tracked.names, fun name _ => unsent name,
      fun name absent => ?_⟩
    have unknown : state.semaphores.find name = none := by
      apply Assoc.find_eq_none.mpr
      intro entry member same
      exact absent (mem_map.mpr ⟨entry, member, same⟩)
    rw [State.semaphore, unknown]
    exact SemaphoreState.replayed_empty
  · rintro name rest before ⟨operated, distinct, unsentRest, replayed⟩
    obtain ⟨apart, distinctRest⟩ := nodup_cons.mp distinct
    refine Code.wp_mono (restoreSemaphore_turned operated.tracked operated.accounted
      (operated.allowed.mpr allowed) (unsentRest name (by simp))) (fun _ after met => ?_) (by simp)
    obtain ⟨turned, own⟩ := met
    refine ⟨operated.trans turned.toOperated, distinctRest, fun other member => ?_, fun other absent => ?_⟩
    · have differ : other ≠ name := fun same => apart (same ▸ member)
      rw [State.waits, turned.others other differ]
      exact unsentRest other (by simp [member])
    · by_cases same : other = name
      · rw [same]
        exact own
      · rw [turned.others other same]
        exact (replayed other (by simp [same, absent])).mono turned.noticed
  · rintro after ⟨operated, _, _, replayed⟩
    exact ⟨operated, fun name => replayed name (by simp)⟩

/-! ## The end of a connection -/

section

variable {ops : SemaphoreState → List SemaphoreOp} (tracked : Tracked state)
include tracked

theorem Tracked.mem_semaphorePromises {number : Nat} (nothing : ops {} = []) :
    .semaphore name number ∈ state.semaphorePromises ops ↔
      ∃ op ∈ ops (state.semaphore name), op.number = number := by
  simp only [State.semaphorePromises, mem_flatMap, mem_map, OpPromise.semaphore.injEq, Prod.exists]
  constructor
  · rintro ⟨first, sem, entry, op, member, same, number⟩
    have found := tracked.names.find_eq_some.mpr (same ▸ entry)
    rw [State.semaphore, found]
    exact ⟨op, member, number⟩
  · rintro ⟨op, member, number⟩
    cases found : state.semaphores.find name with
    | none =>
      rw [State.semaphore, found] at member
      simp [nothing] at member
    | some sem =>
      rw [State.semaphore, found] at member
      exact ⟨name, sem, Assoc.mem_of_find found, op, member, rfl, number⟩

theorem Tracked.nodup_semaphorePromises (within : ∀ name, ∀ op ∈ ops (state.semaphore name),
      (state.semaphore name).Has op) (distinct : ∀ name, (ops (state.semaphore name)).Nodup) :
    (state.semaphorePromises ops).Nodup := by
  apply nodup_flatMap.mpr
  constructor
  · rintro ⟨name, sem⟩ member
    have found : state.semaphore name = sem := by
      rw [State.semaphore, tracked.names.find_eq_some.mpr member]
      rfl
    have single := (tracked.cells name).single
    have withinSem := within name
    have distinctSem := distinct name
    rw [found] at single withinSem distinctSem
    refine .map_on (fun op memberOp other memberOther same => ?_) distinctSem
    exact single op other (withinSem op memberOp) (withinSem other memberOther)
      (OpPromise.semaphore.inj same).2
  · apply tracked.names.imp
    intro first second differ
    simp only [disjoint_left, mem_map]
    rintro entry ⟨op, _, isFirst⟩ ⟨other, _, isSecond⟩
    exact differ (OpPromise.semaphore.inj (isFirst.trans isSecond.symm)).1

theorem Tracked.held_semaphorePromises (within : ∀ name, ∀ op ∈ ops (state.semaphore name),
      (state.semaphore name).Has op) : ∀ promise ∈ state.semaphorePromises ops, promise ∈ state.promises := by
  intro promise member
  simp only [State.semaphorePromises, mem_flatMap, mem_map] at member
  obtain ⟨⟨name, sem⟩, entry, op, isOp, isPromise⟩ := member
  have found : state.semaphore name = sem := by
    rw [State.semaphore, tracked.names.find_eq_some.mpr entry]
    rfl
  exact isPromise ▸ tracked.held (within name op (found ▸ isOp))

theorem Tracked.nodup_failed (name : String) : (state.semaphore name).failed.Nodup := by
  have cell := tracked.cells name
  have nodupOption : ∀ op : Option SemaphoreOp, op.toList.Nodup := by
    intro op
    cases op <;> simp
  have apart : ∀ op, (state.semaphore name).Sent op → ∀ other ∈ (state.semaphore name).opQueue,
      op ≠ other := by
    intro op isSent other queued same
    exact tracked.unqueued isSent (same ▸ queued)
  unfold SemaphoreState.failed
  simp only [nodup_append, mem_append, Option.mem_toList, Option.filter_eq_some_iff]
  refine ⟨⟨⟨cell.waiting, nodupOption _, ?_⟩, nodupOption _, ?_⟩, cell.queue, ?_⟩
  · grind
  · grind
  · intro op isSent
    apply apart op
    unfold SemaphoreState.Sent
    grind

/-- Nothing waits after a connection has ended, and what was acknowledged before the last
operations is aborted. -/
theorem Tracked.disconnect (semaphores : after.semaphores =
      state.semaphores.map fun (name, sem) => (name, { sem with waitingOps := [] }))
    (unindexed : after.semaphoreByReqId = []) (nextReqId : after.nextReqId = state.nextReqId)
    (promises : ∀ name number, .semaphore name number ∈ after.promises ↔
      .semaphore name number ∈ state.promises ∧
        .semaphore name number ∉ state.semaphorePromises SemaphoreState.aborted) :
    Tracked after ∧ ∀ name, after.semaphore name = { state.semaphore name with waitingOps := [] } := by
  have semaphore : ∀ name, after.semaphore name = { state.semaphore name with waitingOps := [] } := by
    intro name
    have found := Assoc.find_map (fun sem : SemaphoreState => { sem with waitingOps := [] }) name
      state.semaphores
    unfold State.semaphore
    rw [semaphores, found]
    cases state.semaphores.find name <;> rfl
  refine ⟨⟨?_, nextReqId ▸ tracked.positive, fun reqId name found => ?_, fun name => ?_⟩, semaphore⟩
  · rw [semaphores]
    exact pairwise_map.mpr tracked.names
  · rw [unindexed] at found
    contradiction
  · rw [semaphore, nextReqId]
    have sent : ∀ op ∈ (state.semaphore name).aborted, (state.semaphore name).Sent op :=
      fun op member => .inl (mem_of_mem_filter member)
    refine (tracked.cells name).part (fun op member => .inl (sent op member))
      (fun op => ?_) (fun op => ?_) nodup_nil (.refl _) fun number => ?_
    · have apart : op ∈ (state.semaphore name).aborted → op ∉ (state.semaphore name).opQueue :=
        fun member => tracked.unqueued (sent op member)
      simp only [SemaphoreState.Has, SemaphoreState.Sent, SemaphoreState.aborted] at apart ⊢
      grind
    · unfold SemaphoreState.Sent
      grind
    · rw [promises, tracked.mem_semaphorePromises rfl]
      simp

theorem Tracked.stop (semaphores : after.semaphores = []) (unindexed : after.semaphoreByReqId = [])
    (nextReqId : after.nextReqId = state.nextReqId)
    (promises : ∀ name number, .semaphore name number ∉ after.promises) : Tracked after := by
  have semaphore : ∀ name, after.semaphore name = {} := by
    intro name
    rw [State.semaphore, semaphores]
    rfl
  refine ⟨?_, nextReqId ▸ tracked.positive, fun reqId name found => ?_, fun name => ?_⟩
  · rw [semaphores]
    exact .nil
  · rw [unindexed] at found
    contradiction
  · rw [semaphore]
    constructor <;> simp [SemaphoreState.Has, SemaphoreState.Sent, promises]

end

end YdbSdk.Coordination
