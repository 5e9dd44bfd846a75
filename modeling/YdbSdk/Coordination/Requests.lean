import YdbSdk.Coordination.Connection

namespace YdbSdk.Coordination

open YdbSdk.Control YdbSdk.Data Code List

/-! # The simple requests

A request waits for a connection, is sent or is in hand.  A description that is watched stays
after its first answer, without its promise.
-/

variable {state after : State} {owed left : List SimpleOp} {op : SimpleOp} {status : Status}
  {reqId : Nat}

def State.requests (state : State) (owed : List SimpleOp) : List SimpleOp :=
  state.pendingRequests ++ state.sentRequests.map Prod.snd ++ owed

structure Requested (owed : List SimpleOp) (state : State) : Prop where
  keys : state.sentRequests.Distinct
  below : ∀ entry ∈ state.sentRequests, entry.1 < state.nextReqId
  numbers : ((state.requests owed).map SimpleOp.number).Nodup
  bounded : ∀ op ∈ state.requests owed, op.number < state.nextNumber
  unanswered : ∀ op ∈ state.requests owed, op.kind.isDescribe = false →
    .request op.number ∈ state.promises
  held : ∀ number, .request number ∈ state.promises → ∃ op ∈ state.requests owed, op.number = number

/-- Requests go to other places, or leave with their promises. -/
theorem Requested.leave {gone : List SimpleOp} (requested : Requested owed state)
    (perm : (state.requests owed).Perm (gone ++ after.requests left)) (keys : after.sentRequests.Distinct)
    (below : ∀ entry ∈ after.sentRequests, entry.1 < after.nextReqId)
    (nextNumber : state.nextNumber ≤ after.nextNumber)
    (promises : ∀ number, .request number ∈ after.promises ↔
      .request number ∈ state.promises ∧ ∀ op ∈ gone, op.number ≠ number) : Requested left after := by
  have numbers := (perm.map SimpleOp.number).nodup_iff.mp requested.numbers
  rw [map_append, nodup_append] at numbers
  have old : ∀ other ∈ after.requests left, other ∈ state.requests owed :=
    fun other member => perm.mem_iff.mpr (mem_append_right _ member)
  refine ⟨keys, below, numbers.2.1, fun other member => ?_, fun other member isSimple => ?_,
    fun number member => ?_⟩
  · exact Nat.lt_of_lt_of_le (requested.bounded other (old other member)) nextNumber
  · refine (promises _).mpr ⟨requested.unanswered other (old other member) isSimple, fun op isGone => ?_⟩
    exact numbers.2.2 _ (mem_map_of_mem isGone) _ (mem_map_of_mem member)
  · obtain ⟨isHeld, differ⟩ := (promises number).mp member
    obtain ⟨other, isRequest, same⟩ := requested.held number isHeld
    rcases mem_append.mp (perm.mem_iff.mp isRequest) with isGone | remains
    · exact absurd same (differ other isGone)
    · exact ⟨other, remains, same⟩

theorem Requested.move (requested : Requested owed state)
    (perm : (state.requests owed).Perm (after.requests left)) (keys : after.sentRequests.Distinct)
    (below : ∀ entry ∈ after.sentRequests, entry.1 < after.nextReqId)
    (nextNumber : state.nextNumber ≤ after.nextNumber)
    (promises : ∀ number, .request number ∈ after.promises ↔ .request number ∈ state.promises) :
    Requested left after :=
  @Requested.leave _ _ _ _ [] requested perm keys below nextNumber
    fun number => (promises number).trans (and_iff_left nofun).symm

theorem Requested.add (requested : Requested owed state) (kind : SimpleKind)
    (perm : (after.requests owed).Perm (⟨state.nextNumber, kind⟩ :: state.requests owed))
    (keys : after.sentRequests.Distinct)
    (below : ∀ entry ∈ after.sentRequests, entry.1 < after.nextReqId)
    (nextNumber : after.nextNumber = state.nextNumber + 1)
    (promises : after.promises = state.promises ++ [.request state.nextNumber]) : Requested owed after := by
  have mem : ∀ other, other ∈ after.requests owed ↔
      other = ⟨state.nextNumber, kind⟩ ∨ other ∈ state.requests owed :=
    fun other => perm.mem_iff.trans mem_cons
  refine ⟨keys, below, (perm.map SimpleOp.number).nodup_iff.mpr (nodup_cons.mpr ⟨?_, requested.numbers⟩),
    fun other member => ?_, fun other member isSimple => ?_, fun number member => ?_⟩
  · intro member
    obtain ⟨other, isRequest, same⟩ := mem_map.mp member
    exact Nat.ne_of_lt (requested.bounded other isRequest) same
  · rw [nextNumber]
    rcases (mem other).mp member with new | old
    · rw [new]
      exact Nat.lt_succ_self _
    · exact Nat.lt_succ_of_lt (requested.bounded other old)
  · rw [promises]
    rcases (mem other).mp member with new | old
    · simp [new]
    · exact mem_append_left _ (requested.unanswered other old isSimple)
  · rw [promises] at member
    rcases mem_append.mp member with old | new
    · obtain ⟨other, isRequest, same⟩ := requested.held number old
      exact ⟨other, (mem other).mpr (.inr isRequest), same⟩
    · exact ⟨_, (mem _).mpr (.inl rfl), (OpPromise.request.inj (mem_singleton.mp new)).symm⟩

/-- The requests have changed, and nothing else. -/
structure Asked (before after : State) : Prop where
  requested : Requested [] after
  accounted : Accounted after
  link : after.link = before.link
  desk : (after.semaphores, after.semaphoreByReqId, after.noticed) =
    (before.semaphores, before.semaphoreByReqId, before.noticed)
  grown : before.nextReqId ≤ after.nextReqId ∧ before.nextNumber ≤ after.nextNumber
  promises : ∀ name number, .semaphore name number ∈ after.promises ↔
    .semaphore name number ∈ before.promises

theorem Asked.refl (requested : Requested [] state) (accounted : Accounted state) : Asked state state :=
  ⟨requested, accounted, rfl, rfl, ⟨Nat.le_refl _, Nat.le_refl _⟩, fun _ _ => .rfl⟩

theorem Asked.trans (first : Asked state middle) (second : Asked middle after) :
    Asked state after :=
  ⟨second.requested, second.accounted, second.link.trans first.link, second.desk.trans first.desk,
    ⟨Nat.le_trans first.grown.1 second.grown.1, Nat.le_trans first.grown.2 second.grown.2⟩,
    fun name number => (second.promises name number).trans (first.promises name number)⟩

theorem doSendSimpleOp_wp
    (allowed : state.isWriteAllowed = true) :
    (doSendSimpleOp op).wp contract state ↔ contract.returns state.nextReqId { state with
        nextReqId := state.nextReqId + 1
        sentRequests := state.sentRequests.insert state.nextReqId op } := by
  simp [doSendSimpleOp, allowed]

theorem discardSendSimpleOp_wp {contract : Contract Empty Assertion State Unit}
    (allowed : state.isWriteAllowed = true) :
    (Functor.discard (doSendSimpleOp op)).wp contract state ↔ contract.returns () { state with
        nextReqId := state.nextReqId + 1
        sentRequests := state.sentRequests.insert state.nextReqId op } := by
  change Code.wp (doSendSimpleOp op >>= fun _ => pure ()) contract state ↔ _
  rw [wp_bind, doSendSimpleOp_wp allowed]
  exact wp_pure _

theorem Requested.insert (requested : Requested owed state) (op : SimpleOp) :
    (state.sentRequests.insert state.nextReqId op).Distinct ∧
      (∀ entry ∈ state.sentRequests.insert state.nextReqId op, entry.1 < state.nextReqId + 1) ∧
      (state.sentRequests.insert state.nextReqId op).map Prod.snd = op :: state.sentRequests.map Prod.snd := by
  have unused : state.sentRequests.find state.nextReqId = none :=
    Assoc.find_eq_none.mpr fun entry member => Nat.ne_of_lt (requested.below entry member)
  refine ⟨requested.keys.insert _ _, fun entry member => ?_, ?_⟩
  · rcases Assoc.mem_insert.mp member with new | old
    · rw [new]
      exact Nat.lt_succ_self _
    · exact Nat.lt_succ_of_lt (requested.below entry old.1)
  · rw [Assoc.insert, Assoc.erase_of_find_none unused, map_cons]

section

variable (requested : Requested [] state) (accounted : Accounted state)
include requested accounted

theorem Asked.send (kind : SimpleKind) : Asked state { state.withPromise (.request state.nextNumber) with
    nextReqId := state.nextReqId + 1
    sentRequests := state.sentRequests.insert state.nextReqId ⟨state.nextNumber, kind⟩ } := by
  obtain ⟨keys, below, sent⟩ := requested.insert ⟨state.nextNumber, kind⟩
  have made := @Accounted.withPromise _ (.request state.nextNumber) accounted rfl
  refine ⟨requested.add kind ?_ keys below rfl rfl, { made with }, rfl, rfl, ⟨Nat.le_succ _, Nat.le_succ _⟩,
    fun name number => by simp [State.withPromise]⟩
  simp only [State.requests, sent, append_nil]
  exact perm_middle

theorem doSimpleOp_asked {kind : SimpleKind} (isOpen : state.isClosed = false) :
    (doSimpleOp kind).wp (.keeping (Asked state) (fun _ => False)) state := by
  have made := @Accounted.withPromise _ (.request state.nextNumber) accounted rfl
  simp only [doSimpleOp, wp_rules, isOpen]
  refine ⟨by simp, fun _ => ⟨fun allowed => ?_, fun _ => ?_⟩⟩
  · exact (discardSendSimpleOp_wp (by exact allowed)).mpr (.send requested accounted kind)
  · refine ⟨requested.add kind ?_ requested.keys requested.below rfl rfl, { made with }, rfl, rfl,
      ⟨Nat.le_refl _, Nat.le_succ _⟩, fun name number => by simp⟩
    simp only [State.requests, append_assoc]
    exact perm_middle

theorem onSelfPingTimer_asked {context : Nat} {busy : Bool} :
    (onSelfPingTimer context busy).wp (.keeping (Asked state) (fun _ => False)) state := by
  have unchanged : Asked state state := .refl requested accounted
  simp only [onSelfPingTimer, wp_rules, setCurrentFailureIfNone_wp]
  refine ⟨fun _ => ⟨fun _ => ?_, fun denied => ⟨fun _ => ?_, fun _ => ⟨fun _ => ?_, fun _ => unchanged⟩⟩⟩,
    fun _ => unchanged⟩
  · exact ⟨{ requested with }, { accounted with }, rfl, rfl, unchanged.grown, unchanged.promises⟩
  · exact ⟨{ requested with }, { accounted with }, rfl, rfl, unchanged.grown, unchanged.promises⟩
  · have allowed : state.isWriteAllowed = true := by simpa using denied
    have sent := Asked.send requested accounted .ping
    apply (doSendSimpleOp_wp (by exact allowed)).mpr
    exact ⟨{ sent.requested with }, { sent.accounted with }, rfl, rfl, sent.grown, sent.promises⟩

theorem sendPending_asked (allowed : state.isWriteAllowed = true) :
    (do
      .forEach (← .read State.pendingRequests) fun op => Functor.discard (doSendSimpleOp op)
      .update fun state => { state with pendingRequests := [] } : Session Unit).wp
      (.keeping (Asked state) (fun _ => False)) state := by
  simp only [wp_rules]
  apply wp_forEach fun rest before => Asked state { before with pendingRequests := rest } ∧
    before.isWriteAllowed = true
  · exact ⟨.refl requested accounted, allowed⟩
  · rintro op rest before ⟨asked, permitted⟩
    obtain ⟨keys, below, sent⟩ := asked.requested.insert op
    refine (discardSendSimpleOp_wp permitted).mpr ⟨asked.trans ?_, permitted⟩
    refine ⟨asked.requested.move ?_ keys below (Nat.le_refl _) fun _ => .rfl, { asked.accounted with },
      rfl, rfl, ⟨Nat.le_succ _, Nat.le_refl _⟩, fun _ _ => .rfl⟩
    simp only [State.requests, sent, append_nil]
    exact perm_middle.symm
  · exact fun after asked => asked.1

end

/-! ## Answers -/

theorem State.findSentRequest_eq_some :
    state.findSentRequest reqId wanted = some op ↔
      state.sentRequests.find reqId = some op ∧ wanted op.kind = true :=
  Option.filter_eq_some_iff

theorem Requested.watch (requested : Requested owed state) (member : op ∈ state.requests owed)
    (isDescribe : op.kind.isDescribe = true) (settles : Settles [.request op.number] state after) :
    Requested owed after := by
  obtain ⟨-, -, tables, promises⟩ := settles
  simp only [Prod.mk.injEq] at tables
  obtain ⟨-, -, pending, sent, nextReqId, nextNumber, -⟩ := tables
  have requests : after.requests owed = state.requests owed := by rw [State.requests, pending, sent]; rfl
  refine ⟨sent ▸ requested.keys, sent ▸ nextReqId ▸ requested.below, requests ▸ requested.numbers,
    requests ▸ nextNumber ▸ requested.bounded, fun other isRequest isSimple => ?_, fun number isHeld => ?_⟩
  · rw [requests] at isRequest
    refine (promises _).mpr ⟨requested.unanswered other isRequest isSimple, fun same => ?_⟩
    have number := OpPromise.request.inj (mem_singleton.mp same)
    rw [inj_on_of_nodup_map requested.numbers isRequest member number, isDescribe] at isSimple
    contradiction
  · rw [requests]
    exact requested.held number ((promises _).mp isHeld).1

theorem Requested.answer (requested : Requested [] state)
    (found : state.sentRequests.find reqId = some op)
    (settles : Settles [.request op.number] { state with sentRequests := state.sentRequests.erase reqId } after) :
    Requested [] after := by
  obtain ⟨-, -, tables, promises⟩ := settles
  simp only [Prod.mk.injEq] at tables
  obtain ⟨-, -, pending, sent, nextReqId, nextNumber, -⟩ := tables
  refine @Requested.leave _ _ _ _ [op] requested ?_ (sent ▸ requested.keys.erase reqId) ?_
    (Nat.le_of_eq nextNumber.symm) fun number => (promises _).trans ?_
  · have perm := (requested.keys.perm_erase found).map Prod.snd
    simp only [State.requests, pending, sent, append_nil]
    exact (perm.append_left _).trans perm_middle
  · rw [sent, nextReqId]
    exact fun entry member => requested.below entry (Assoc.mem_erase.mp member).1
  · simp [eq_comm]

theorem Settles.asked {middle : State} {gone : List SimpleOp}
    (settles : Settles (gone.map fun op => .request op.number) middle after)
    (requested : Requested [] after) (link : middle.link = state.link)
    (desk : (middle.semaphores, middle.semaphoreByReqId, middle.noticed, middle.nextReqId,
        middle.nextNumber, middle.promises) =
      (state.semaphores, state.semaphoreByReqId, state.noticed, state.nextReqId, state.nextNumber,
        state.promises)) : Asked state after := by
  obtain ⟨accounted, sameLink, tables, promises⟩ := settles
  simp only [Prod.mk.injEq] at tables desk
  obtain ⟨semaphores, byReqId, -, -, nextReqId, nextNumber, noticed⟩ := tables
  obtain ⟨semaphoresMiddle, byReqIdMiddle, noticedMiddle, nextReqIdMiddle, nextNumberMiddle, promisesMiddle⟩ :=
    desk
  refine ⟨requested, accounted, sameLink.trans link, ?_, ?_, fun name number => ?_⟩
  · rw [semaphores, byReqId, noticed, semaphoresMiddle, byReqIdMiddle, noticedMiddle]
  · exact ⟨Nat.le_of_eq (nextReqId.trans nextReqIdMiddle).symm,
      Nat.le_of_eq (nextNumber.trans nextNumberMiddle).symm⟩
  · rw [promises, promisesMiddle]
    simp

theorem simpleResult_asked {wanted : SimpleKind → Bool} {watchAdded : Bool}
    (requested : Requested [] state) (accounted : Accounted state)
    (watchable : watchAdded = true → ∀ kind, wanted kind = true → kind.isDescribe = true) :
    (simpleResult reqId wanted watchAdded status).wp (.keeping (Asked state) (fun _ => False)) state := by
  simp only [simpleResult, wp_rules]
  cases found : state.findSentRequest reqId wanted with
  | none => exact .refl requested accounted
  | some op =>
    obtain ⟨isSent, isWanted⟩ := State.findSentRequest_eq_some.mp found
    simp only [wp_rules]
    refine ⟨fun _ => wp_mono (fulfilIfAny_settles { accounted with }) (fun _ after settles => ?_) (by simp),
      fun added => wp_mono (fulfilIfAny_settles accounted) (fun _ after settles => ?_) (by simp)⟩
    · exact @Settles.asked _ _ _ [op] settles (requested.answer isSent settles) rfl rfl
    · have member : op ∈ state.requests [] := by
        simp only [State.requests, append_nil, mem_append]
        exact .inr (mem_map.mpr ⟨_, Assoc.mem_of_find isSent, rfl⟩)
      have isDescribe := watchable (by simpa using added) op.kind isWanted
      exact @Settles.asked _ _ _ [op] settles (requested.watch member isDescribe settles) rfl rfl

theorem notify_settles {dataChanged ownersChanged : Bool} (accounted : Accounted state) :
    (notify op dataChanged ownersChanged).wp (.keeping (Settles [] state) (fun _ => False)) state := by
  unfold notify
  split
  · exact ⟨{ accounted with }, rfl, rfl, fun _ => (and_iff_left nofun).symm⟩
  · exact ⟨accounted, rfl, rfl, fun _ => (and_iff_left nofun).symm⟩

theorem Settles.absent (settles : Settles [] state after)
    (absent : promise ∉ state.promises) : Settles [promise] state after := by
  refine { settles with promises := fun other => (settles.promises other).trans (and_congr_right fun held => ?_) }
  refine iff_of_true nofun fun same => absent ?_
  exact mem_singleton.mp same ▸ held

theorem describeSemaphoreChanged_asked {dataChanged ownersChanged : Bool}
    (requested : Requested [] state) (accounted : Accounted state)
    (answered : ∀ op ∈ state.findSentRequest reqId SimpleKind.isDescribe,
      .request op.number ∉ state.promises) :
    (describeSemaphoreChanged reqId dataChanged ownersChanged).wp
      (.keeping (Asked state) (fun _ => False)) state := by
  simp only [describeSemaphoreChanged, wp_rules]
  cases found : state.findSentRequest reqId SimpleKind.isDescribe with
  | none => exact .refl requested accounted
  | some op =>
    obtain ⟨isSent, _⟩ := State.findSentRequest_eq_some.mp found
    simp only [wp_rules]
    refine wp_mono (notify_settles { accounted with }) (fun _ after settles => ?_) (by simp)
    have settled := settles.absent (by exact answered op found)
    exact @Settles.asked _ _ _ [op] settled (requested.answer isSent settled) rfl rfl

/-! ## Failures -/

theorem setFailure_settles (accounted : Accounted state)
    (unanswered : op.kind.isDescribe = false → .request op.number ∈ state.promises) :
    (setFailure status op).wp (.keeping (Settles [.request op.number] state) (fun _ => False)) state := by
  simp only [setFailure, wp_rules]
  refine ⟨fun watched => ?_, fun unwatched => ?_⟩
  · simp only [Bool.and_eq_true, decide_eq_true_eq] at watched
    exact wp_mono (notify_settles accounted) (fun _ _ settles => settles.absent watched.2) (by simp)
  · have held : .request op.number ∈ state.promises := by
      grind
    refine (fulfil_wp held).mpr ⟨accounted.fulfil held, rfl, rfl, fun other => ?_⟩
    simpa using accounted.mem_fulfil

theorem Settles.append (first : Settles gone state middle)
    (second : Settles later middle after) : Settles (gone ++ later) state after := by
  refine ⟨second.accounted, second.link.trans first.link, second.tables.trans first.tables, fun promise => ?_⟩
  rw [second.promises, first.promises, mem_append, not_or, and_assoc]

theorem setFailures_settle {requests : List SimpleOp} (accounted : Accounted state)
    (numbers : (requests.map SimpleOp.number).Nodup)
    (unanswered : ∀ op ∈ requests, op.kind.isDescribe = false → .request op.number ∈ state.promises) :
    (Code.forEach requests (setFailure status)).wp
      (.keeping (Settles (requests.map fun op => .request op.number) state) (fun _ => False)) state := by
  induction requests generalizing state with
  | nil => exact ⟨accounted, rfl, rfl, fun _ => (and_iff_left (by simp)).symm⟩
  | cons op rest ih =>
    obtain ⟨apart, distinct⟩ := nodup_cons.mp numbers
    rw [Code.forEach, wp_bind]
    refine wp_mono (setFailure_settles accounted (unanswered op (by simp)))
      (fun _ middle first => ?_) (by simp)
    refine wp_mono (ih first.accounted distinct fun other member isSimple => ?_)
      (fun _ after second => first.append second) (by simp)
    refine (first.promises _).mpr ⟨unanswered other (by simp [member]) isSimple, fun same => apart ?_⟩
    rw [← OpPromise.request.inj (mem_singleton.mp same)]
    exact mem_map_of_mem member

theorem failOperations_settles {promises : List OpPromise} {requests : List SimpleOp}
    {semaphoreStatus : Status} (accounted : Accounted state) (distinct : promises.Nodup)
    (held : ∀ promise ∈ promises, promise ∈ state.promises)
    (apart : ∀ number, .request number ∉ promises)
    (numbers : (requests.map SimpleOp.number).Nodup)
    (unanswered : ∀ op ∈ requests, op.kind.isDescribe = false → .request op.number ∈ state.promises) :
    (failOperations promises semaphoreStatus requests status).wp
      (.keeping (Settles (promises ++ requests.map fun op => .request op.number) state) (fun _ => False))
      state := by
  unfold failOperations
  rw [wp_bind]
  refine wp_mono (fulfils_settle accounted distinct held) (fun _ middle first => ?_) nofun
  refine wp_mono (setFailures_settle first.accounted numbers fun op member isSimple => ?_)
    (fun _ after second => first.append second) nofun
  exact (first.promises _).mpr ⟨unanswered op member isSimple, apart op.number⟩

end YdbSdk.Coordination
