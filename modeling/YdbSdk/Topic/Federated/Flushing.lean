import YdbSdk.Topic.Federated.WriteSession
import YdbSdk.Data.Receipts

namespace YdbSdk.Topic.Federated.WriteSession

open YdbSdk.Control YdbSdk.Data Code List

/-! # Flushing the federated write session

A flush promise travels in a queued message and is completed when the message leaves the
queues or the session closes: the two queues keep receipts for the messages.
-/

def promises (messages : List WrappedWriteMessage) : List (Option Nat) :=
  messages.map WrappedWriteMessage.flushPromise

def State.receipts (state : State) : Receipts where
  accepted := state.accepted.length
  acknowledged := state.acknowledged
  waiting := promises (state.toGetAck ++ state.toPassDown)
  answered := state.flushed
  next := state.nextPromise
  closed := state.sessionState = .closed

def keepsReceipts : Code.Motion State where
  moves before after := Relation.ReflTransGen Receipts.Step before.receipts after.receipts
  refl _ := .refl
  trans := .trans

variable {settings : Settings} {state before after final : State}

theorem keepsReceipts_of_eq (same : after.receipts = before.receipts) :
    keepsReceipts.moves before after := by
  change Relation.ReflTransGen Receipts.Step before.receipts after.receipts
  rw [same]

theorem completions_promises (value : Bool) (messages : List WrappedWriteMessage) :
    Receipts.completions value (promises messages) = completions value messages := by
  simp [Receipts.completions, promises, completions]

theorem promises_append (first second : List WrappedWriteMessage) :
    promises (first ++ second) = promises first ++ promises second :=
  map_append ..

theorem promises_moveAll (address : Nat) (messages : List WrappedWriteMessage) :
    promises (moveAll address messages) = promises messages := by
  have same : ∀ entries : List (WrappedWriteMessage × Nat),
      promises (entries.map fun entry => entry.1.moved entry.2) = promises (entries.map Prod.fst) := by
    simp [promises, WrappedWriteMessage.moved]
  rw [moveAll, same, zipIdx_map_fst]

theorem goOn_receipts (works : List Work) : (goOn works).Follows keepsReceipts :=
  .update fun _ => .refl

theorem maybeWriteImpl_receipts : maybeWriteImpl.Follows keepsReceipts := by
  intro state
  cases pending : state.pendingToken with
  | false =>
    simp only [maybeWriteImpl, pending, wp_rules]
    exact .refl
  | true =>
    cases queue : state.toPassDown with
    | nil =>
      simp only [maybeWriteImpl, pending, queue, wp_rules]
      exact .refl
    | cons front rest =>
      simp only [maybeWriteImpl, writeToSubsession, pending, queue, wp_rules]
      rw [List.getLast?_concat]
      split
      · trivial
      · contradiction
      · rename_i back found
        cases found
        split
        · trivial
        · apply keepsReceipts_of_eq
          simp [State.receipts, promises, queue, WrappedWriteMessage.moved]

theorem closeImpl_receipts : closeImpl.Follows keepsReceipts := by
  intro state
  simp only [closeImpl, wp_rules]
  refine ⟨fun _ => .refl, fun _ => ?_⟩
  apply Relation.ReflTransGen.single
  have closed := @Receipts.Step.close state.receipts (promises state.toGetAck)
    (promises state.toPassDown) (promises_append ..)
  simp only [completions_promises] at closed
  convert closed using 1
  simp [State.receipts, promises, completeFlush, Function.comp_def]

theorem scheduleFederationStateUpdateImpl_receipts (hasContext : Bool) :
    (scheduleFederationStateUpdateImpl hasContext).Follows keepsReceipts :=
  .ite _ (fun _ => .update fun _ => .refl) fun _ => closeImpl_receipts

theorem openSubsessionImpl_receipts (db : DbInfo) :
    (openSubsessionImpl db).Follows keepsReceipts :=
  .update fun state => keepsReceipts_of_eq (by
    simp only [State.receipts, nil_append, promises_append, promises_moveAll])

theorem updateFederationState_receipts (federationState : FederatedDbState) (hasContext : Bool) :
    (updateFederationState settings federationState hasContext).Follows keepsReceipts := by
  refine .bind (.update fun _ => .refl) fun _ => .bind .get fun _ =>
    .ite _ (fun _ => .pure ()) fun _ => .ite _ (fun _ => ?_) fun _ => closeImpl_receipts
  refine .bind (.require _ _) fun _ => ?_
  split
  · exact .bind (.read _) fun _ => .bind (.update fun _ => .refl) fun _ => .ite _
      (fun _ => scheduleFederationStateUpdateImpl_receipts hasContext) fun _ => closeImpl_receipts
  · exact .stop _
  · exact .bind (.update fun _ => .refl) fun _ => .bind .get fun _ =>
      .bind (.when fun _ => openSubsessionImpl_receipts _) fun _ =>
        scheduleFederationStateUpdateImpl_receipts hasContext

theorem popAcknowledged_receipts : popAcknowledged.Follows keepsReceipts := by
  intro state
  cases queue : state.toGetAck with
  | nil =>
    simp only [popAcknowledged, queue, wp_rules]
  | cons front rest =>
    simp only [popAcknowledged, queue, wp_rules]
    apply Relation.ReflTransGen.single
    have acknowledged := @Receipts.Step.acknowledge state.receipts front.flushPromise
      (promises (rest ++ state.toPassDown)) (by simp [State.receipts, promises, queue])
    exact (completions_promises true [front]) ▸ acknowledged

theorem writeInternal_receipts (data : List UInt8) (message : WriteMessage) (now : Nat) :
    (writeInternal data message now).Follows keepsReceipts := by
  apply Code.Follows.bind (.read _)
  intro address
  refine .bind (.update fun state => ?_) fun _ =>
    .bind maybeWriteImpl_receipts fun _ => goOn_receipts _
  apply Relation.ReflTransGen.single
  convert Receipts.Step.accept state.receipts using 1
  simp [State.receipts, promises, WrappedWriteMessage.moved, WriteMessage.wrap]

theorem acksHandler_receipts (index count : Nat) :
    (acksHandler index count).Follows keepsReceipts :=
  .bind .get fun _ => .when fun _ => .bind (.require _ _) fun _ =>
    .bind (.forEach fun _ _ => popAcknowledged_receipts) fun _ =>
      .bind (.update fun _ => .refl) fun _ => goOn_receipts _

theorem readyToAcceptHandler_receipts (index : Nat) :
    (readyToAcceptHandler index).Follows keepsReceipts :=
  .bind .get fun _ => .when fun _ => .bind (.require _ _) fun _ =>
    .bind (.update fun _ => .refl) fun _ => maybeWriteImpl_receipts

theorem pushEvent_receipts (event : ClientEvent) : (pushEvent event).Follows keepsReceipts :=
  .bind .get fun _ => .when fun _ => .update fun _ => .refl

theorem perform_receipts (work : Work) : (perform work).Follows keepsReceipts := by
  cases work with
  | issueTokenIfAllowed =>
    exact .bind .get fun _ => .ite _ (fun _ => .bind (.update fun _ => .refl) fun _ => .pure _)
      fun _ => .pure _
  | pushToken => exact .bind (pushEvent_receipts _) fun _ => .pure _
  | pushAcks count => exact .bind (pushEvent_receipts _) fun _ => .pure _
  | closeQueue => exact .bind (.update fun _ => .refl) fun _ => .pure _
  | subscribe => exact .bind (.update fun _ => .refl) fun _ => .pure _
  | finishClose => exact .bind closeImpl_receipts fun _ => .pure _

theorem resume_receipts (thread : Nat) : (resume thread).Follows keepsReceipts := by
  refine .bind .get fun _ => ?_
  split
  · exact .bind (.update fun _ => .refl) fun _ => .bind (perform_receipts _) fun _ =>
      .update fun _ => .refl
  · exact .pure ()

theorem exists_last {queue : List WrappedWriteMessage} (filled : (!queue.isEmpty) = true) :
    ∃ former last, queue = former ++ [last] := by
  rcases eq_nil_or_concat queue with none | ⟨former, last, isLast⟩
  · simp [none] at filled
  · exact ⟨former, last, by rw [isLast, concat_eq_append]⟩

theorem promiseFlush_ask
    (isLast : queue = former ++ [last]) (promise : Nat) :
    (promiseFlush queue promise).2 = last.flushPromise.getD promise ∧
      promises (promiseFlush queue promise).1 =
        promises former ++ [some (last.flushPromise.getD promise)] := by
  subst isLast
  simp [promiseFlush, promises]

def FlushFuture.answers (state : State) : FlushFuture → List Bool
  | .made value => [value]
  | .promised promise => state.receipts.answers promise

inductive Flushed (before after : State) : FlushFuture → Prop where
  | refused (closed : before.sessionState = .closed) (same : after.receipts = before.receipts) :
      Flushed before after (.made false)
  | empty (drained : before.receipts.waiting = []) (same : after.receipts = before.receipts) :
      Flushed before after (.made true)
  | promised {former : List (Option Nat)} {last : Option Nat}
      (isOpen : before.receipts.closed = false)
      (queue : before.receipts.waiting = former ++ [last])
      (asked : after.receipts = { before.receipts with
        waiting := former ++ [some (last.getD before.receipts.next)]
        next := before.receipts.next + 1 }) :
      Flushed before after (.promised (last.getD before.receipts.next))

theorem Flushed.of_last {former : List WrappedWriteMessage} {last : WrappedWriteMessage}
    (isOpen : before.sessionState ≠ .closed)
    (isLast : before.toGetAck ++ before.toPassDown = former ++ [last])
    (waiting : after.receipts.waiting =
      promises former ++ [some (last.flushPromise.getD before.nextPromise)])
    (others : after.receipts = { before.receipts with
      waiting := after.receipts.waiting, next := before.receipts.next + 1 }) :
    Flushed before after (.promised (last.flushPromise.getD before.nextPromise)) := by
  refine .promised (by simpa [State.receipts] using isOpen) ?_ (waiting ▸ others)
  change promises (before.toGetAck ++ before.toPassDown) = _
  rw [isLast, promises_append]
  rfl

theorem flush_flushed (state : State) :
    flush.wp (.keeping fun after => ∃ future, after.flushes = state.flushes ++ [future] ∧
      Flushed state after future) state := by
  simp only [flush, wp_rules]
  refine ⟨fun closed => ⟨_, rfl, .refused closed rfl⟩, fun isOpen => ⟨fun filled => ?_, fun empty =>
    ⟨fun filled => ?_, fun drained => ⟨_, rfl, .empty ?_ rfl⟩⟩⟩⟩
  · obtain ⟨former, last, isLast⟩ := exists_last filled
    obtain ⟨promise, queue⟩ := promiseFlush_ask isLast state.nextPromise
    refine ⟨_, rfl, ?_⟩
    rw [promise]
    refine .of_last isOpen (by rw [isLast, append_assoc]) ?_ rfl
    simp [State.receipts, State.answerFlush, promises_append, queue]
  · obtain ⟨former, last, isLast⟩ := exists_last filled
    obtain ⟨promise, queue⟩ := promiseFlush_ask isLast state.nextPromise
    have none : state.toPassDown = [] := by simpa using empty
    refine ⟨_, rfl, ?_⟩
    rw [promise]
    refine .of_last isOpen (by rw [isLast, none, append_nil]) ?_ rfl
    simp [State.receipts, State.answerFlush, none, queue]
  · have passed : state.toPassDown = [] := by simpa using empty
    have acknowledged : state.toGetAck = [] := by simpa using drained
    simp [State.receipts, promises, passed, acknowledged]

theorem flush_receipts : flush.Follows keepsReceipts := by
  intro state
  refine wp_mono (flush_flushed state) (fun _ after called => ?_) nofun
  obtain ⟨future, _, flushed⟩ := called
  change Relation.ReflTransGen Receipts.Step state.receipts after.receipts
  cases flushed with
  | refused _ same => rw [same]
  | empty _ same => rw [same]
  | promised isOpen queue asked => exact asked ▸ .single (.ask isOpen queue)

theorem startSession_receipts : startSession.Follows keepsReceipts := by
  intro state
  simp only [startSession, wp_rules]
  refine ⟨fun created => ?_, fun _ => .refl⟩
  exact (goOn_receipts _).after (keepsReceipts_of_eq (by simp [State.receipts, created]))

theorem close_receipts : close.Follows keepsReceipts := by
  intro state
  simp only [close, wp_rules]
  refine ⟨fun _ => .refl, fun isOpen => ?_⟩
  exact (goOn_receipts _).after (keepsReceipts_of_eq (by simp [State.receipts, isOpen]))

theorem react_receipts (event : Event) : (react settings event).Follows keepsReceipts := by
  cases event with
  | start => exact startSession_receipts
  | write data message now =>
    exact .bind (.update fun _ => .refl) fun _ => writeInternal_receipts data message now
  | flush => exact flush_receipts
  | close => exact close_receipts
  | getEvent => exact .update fun state => keepsReceipts_of_eq (by split <;> rfl)
  | updateFederationState federationState hasContext =>
    exact updateFederationState_receipts federationState hasContext
  | readyToAccept index =>
    exact .bind (.update fun _ => .refl) fun _ => readyToAcceptHandler_receipts index
  | acks index count =>
    exact .bind (.update fun _ => .refl) fun _ => acksHandler_receipts index count
  | sessionClosed index isSuccess => exact .bind .get fun _ => .when fun _ => closeImpl_receipts
  | resume thread => exact resume_receipts thread

theorem receipts_of_reachable (reached : Reachable (react settings) Permitted before after) :
    Relation.ReflTransGen Receipts.Step before.receipts after.receipts := by
  induction reached with
  | start => exact .refl
  | step event _ _ taken ih =>
    have moved := wp_step (react_receipts event _) taken
    exact ih.trans moved

theorem sound_of_reachable (reached : Reachable (react settings) Permitted (start settings) state) :
    state.receipts.Sound := by
  refine .star (receipts_of_reachable reached) ⟨rfl, ?_, fun _ _ => rfl, nofun⟩
  exact fun _ => Nat.zero_le _

/-- What a flush future is answered with, from the call of `Flush` on. -/
structure Resolves (accepted : Nat) (future : FlushFuture) (state : State) : Prop where
  once : (future.answers state).length ≤ 1
  honest : true ∈ future.answers state → accepted ≤ state.acknowledged
  answered : state.sessionState = .closed ∨ accepted ≤ state.acknowledged →
    (future.answers state).length = 1

/-- Every future of `Flush` is resolved once, with `true` only if the messages accepted before
the call were acknowledged, with `false` if the session closes before. -/
theorem flush_resolved_once
    (reached : Reachable (react settings) Permitted (start settings) before)
    (called : flush.step before = .ok after) :
    ∃ future, after.flushes = before.flushes ++ [future] ∧
      ∀ state, Reachable (react settings) Permitted after state →
        Resolves before.accepted.length future state ∧
        (state.sessionState = .closed → state.acknowledged < before.accepted.length →
          ∀ final, Reachable (react settings) Permitted state final →
            future.answers final = [false]) := by
  have sound := sound_of_reachable reached
  obtain ⟨future, answer, flushed⟩ := wp_step (flush_flushed before) called
  refine ⟨future, answer, fun state later => ?_⟩
  have steps := receipts_of_reachable later
  cases flushed with
  | refused closed same =>
    refine ⟨⟨le_rfl, fun wrong => by simp [FlushFuture.answers] at wrong, fun _ => rfl⟩, ?_⟩
    exact fun _ _ _ _ => rfl
  | empty drained same =>
    have acknowledged : before.accepted.length ≤ state.acknowledged := by
      have grown := (Receipts.Grows.star steps).acknowledged
      have counted := sound.counted
      rw [drained] at counted
      rw [same] at grown
      exact counted.le.trans grown
    refine ⟨⟨le_rfl, fun _ => acknowledged, fun _ => rfl⟩, ?_⟩
    exact fun _ short => absurd acknowledged (Nat.not_le_of_lt short)
  | promised isOpen queue asked =>
    have tracks := Receipts.Tracks.star steps (asked ▸ sound.ask isOpen queue)
    have soundAfter := Receipts.Sound.star steps (asked ▸ (Receipts.Step.ask isOpen queue).sound sound)
    refine ⟨⟨?_, tracks.honest, fun finished => ?_⟩, fun closed short final last => ?_⟩
    · have once := tracks.once
      rw [Receipts.uses] at once
      simp only [FlushFuture.answers]
      omega
    · exact tracks.answered soundAfter (finished.imp_left fun closed => by simp [State.receipts, closed])
    · exact tracks.refused soundAfter (by simp [State.receipts, closed]) short
        (receipts_of_reachable last)

def writtenRun : List Event :=
  [.start, .resume 0, .resume 0, .resume 0, .getEvent,
    .updateFederationState { selfLocation := ['x'], dbInfos := [{ name := ['a'], location := ['x'] }] }
      true,
    .readyToAccept 0, .write [1, 2] { data := ⟨0, 0⟩ } 7, .resume 1, .resume 1, .getEvent,
    .write [3] { data := ⟨0, 0⟩ } 8]

def acknowledgedRun : List Event :=
  [.updateFederationState { selfLocation := ['x'], dbInfos := [{ name := ['b'], location := ['x'] }] }
      true,
    .readyToAccept 1, .readyToAccept 1, .acks 1 2]

theorem flush_resolved_once_switched : ∃ before after state future,
    Reachable (react { maxMemoryUsage := 10 }) Permitted (start { maxMemoryUsage := 10 }) before ∧
      flush.step before = .ok after ∧
      Reachable (react { maxMemoryUsage := 10 }) Permitted after state ∧
      before.accepted.length = 2 ∧ state.acknowledged = 2 ∧ state.flushed = [(0, true)] ∧
      Resolves before.accepted.length future state := by
  obtain ⟨before, reached, two, after, called, permitted, ends⟩ : ∃ before,
      Reachable (react { maxMemoryUsage := 10 }) Permitted (start { maxMemoryUsage := 10 }) before ∧
      before.accepted.length = 2 ∧ ∃ after, flush.step before = .ok after ∧
        Control.Permitted (react { maxMemoryUsage := 10 }) Permitted after acknowledgedRun ∧
        ∃ state, run (react { maxMemoryUsage := 10 }) after acknowledgedRun = .ok state ∧
          state.acknowledged = 2 ∧ state.flushed = [(0, true)] :=
    exists_reachable writtenRun (by decide +kernel)
  obtain ⟨state, later, acknowledged, answered⟩ := exists_reachable acknowledgedRun ⟨permitted, ends⟩
  obtain ⟨future, _, resolved⟩ := flush_resolved_once reached called
  exact ⟨before, after, state, future, reached, called, later, two, acknowledged, answered,
    (resolved state later).1⟩

end YdbSdk.Topic.Federated.WriteSession
