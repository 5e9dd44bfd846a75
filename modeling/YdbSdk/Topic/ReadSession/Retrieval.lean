import YdbSdk.Topic.ReadSession.Pushes

namespace YdbSdk.Topic.ReadSession

open YdbSdk.Control YdbSdk.Data Code List

/-! # The user retrieves events

`GetEvents` follows the global queue.  Its entries announce exactly the ready events of
each partition session, so an event is found where it is announced.
-/

variable {env : Environment} {spared : Nat → Prop} {state after : State}
  {entry : ReadSessionEventInfo} {others : List ReadSessionEventInfo}
  {rest moved : List RawPartitionStreamEvent} {maxByteSize left : Nat}

/-- An entry after some of the events it announces were taken. -/
def ReadSessionEventInfo.remaining (entry : ReadSessionEventInfo) (left : Nat)
    (others : List ReadSessionEventInfo) : List ReadSessionEventInfo :=
  if left = 0 then others else { entry with eventsCount := left } :: others

theorem announcedKinds_cons (stream : Nat) (entry : ReadSessionEventInfo)
    (others : List ReadSessionEventInfo) :
    announcedKinds stream (entry :: others) =
      (if entry.partitionStream = stream then
        .replicate entry.eventsCount entry.hasDataEvents else []) ++
        announcedKinds stream others := by
  simp [announcedKinds]

theorem announcedKinds_remaining (stream : Nat) (entry : ReadSessionEventInfo) (left : Nat)
    (others : List ReadSessionEventInfo) :
    announcedKinds stream (entry.remaining left others) =
      (if entry.partitionStream = stream then .replicate left entry.hasDataEvents else []) ++
        announcedKinds stream others := by
  unfold ReadSessionEventInfo.remaining
  split
  · rename_i none
    simp [none]
  · rw [announcedKinds_cons]

theorem announcedCount_remaining (entry : ReadSessionEventInfo) (left : Nat)
    (others : List ReadSessionEventInfo) :
    announcedCount (entry.remaining left others) = left + announcedCount others := by
  unfold ReadSessionEventInfo.remaining
  split
  · rename_i none
    simp [none]
  · simp [announcedCount]

theorem announced_front (announced : announcedKinds entry.partitionStream (entry :: others) =
      (moved ++ rest).map RawPartitionStreamEvent.isDataEvent)
    (count : moved.length + left = entry.eventsCount) :
    announcedKinds entry.partitionStream (entry.remaining left others) =
      rest.map RawPartitionStreamEvent.isDataEvent := by
  rw [announcedKinds_remaining, if_pos rfl]
  rw [announcedKinds_cons, if_pos rfl, ← count, replicate_add, append_assoc,
    map_append] at announced
  exact (append_inj announced (by simp)).2

section

variable (sound : Sound env spared state)
include sound

section

variable (events : state.events = entry :: others)
include events

theorem Sound.takeReady (split : (state.streams entry.partitionStream).ready = moved ++ rest)
    (count : moved.length + left = entry.eventsCount)
    (afterStreams : after.streams = (state.changeStream entry.partitionStream
      fun queue => { queue with ready := rest }).streams)
    (afterEvents : after.events = entry.remaining left others)
    (afterPushed : after.pushed = state.pushed) (afterClosed : after.closed = state.closed)
    (afterCloseEvent : after.closeEvent = state.closeEvent)
    (afterBefore : after.returnedBeforeClose = state.returnedBeforeClose)
    (afterItems : ∀ channel other, after.itemsHanded channel other =
      state.itemsHanded channel other ++ if channel = .returned ∧ other = entry.partitionStream
        then moved.flatMap RawPartitionStreamEvent.items else [])
    (afterReturned : ∀ event ∈ after.returned, event ∈ state.returned ∨
      event.isSessionClosedEvent = false) : Sound env spared after := by
  have unclosed : state.closed = false := by
    by_contra closed
    have empty := sound.emptied (by simpa using closed)
    simp [events] at empty
  have here : after.streams entry.partitionStream =
      { state.streams entry.partitionStream with ready := rest } := by
    rw [afterStreams, State.changeStream_self]
  have elsewhere : ∀ other, other ≠ entry.partitionStream →
      after.streams other = state.streams other := by
    intro other differ
    rw [afterStreams, State.changeStream_other _ _ differ]
  have touches : Touches entry.partitionStream state after :=
    ⟨elsewhere, fun other _ => congrFun afterPushed other,
      fun channel other differ => by rw [afterItems, if_neg (fun both => differ both.2),
        append_nil], afterClosed, afterCloseEvent, afterBefore⟩
  have noClosing : ∀ event ∈ after.returned, event.isSessionClosedEvent = false :=
    fun event member =>
      (afterReturned event member).elim (sound.closingLast.ordinary unclosed event) id
  have counted := sound.counted
  rw [events] at counted
  refine sound.touchReturning touches (fun _ _ => id) ?_ (fun _ other => ?_) ?_ ?_
    (fun channel => ?_) ?_
  · rw [here]
    have before := sound.streams entry.partitionStream
    refine ⟨fun task decompressed member => before.readyTasks task decompressed ?_,
      before.heldTasks, fun task decompressed member => before.uniform task decompressed ?_,
      before.bypassed⟩
    · rw [split]
      exact mem_append_right _ member
    · rcases mem_append.mp member with inReady | held
      · exact mem_append_left _ (split ▸ mem_append_right _ inReady)
      · exact mem_append_right _ held
  · have announced := sound.announced unclosed other
    rw [events] at announced
    rw [afterEvents]
    by_cases same : other = entry.partitionStream
    · subst same
      rw [split] at announced
      rw [here, announced_front announced count]
    · rw [announcedKinds_cons, if_neg (Ne.symm same)] at announced
      rw [announcedKinds_remaining, if_neg (Ne.symm same), elsewhere other same]
      exact announced
  · rw [afterEvents]
    intro other member
    unfold ReadSessionEventInfo.remaining at member
    split at member
    · exact counted other (mem_cons_of_mem _ member)
    · rename_i some
      rcases mem_cons.mp member with rfl | later
      · refine ⟨Nat.pos_of_ne_zero some, fun isService => ?_⟩
        have single := (counted entry (by simp)).single isService
        show left = 1
        omega
      · exact counted other (mem_cons_of_mem _ later)
  · intro closed
    rw [afterClosed, unclosed] at closed
    contradiction
  · refine ((sound.delivers channel entry.partitionStream).mono fun whole => ?_).move
      (if channel = .returned then moved else []) ?_ (congrFun afterPushed _) afterClosed ?_
    · exact ⟨whole.1, by simpa only [State.Intact, afterPushed] using whole.2⟩
    · rw [afterItems]
      cases channel <;> simp
    · cases channel with
      | returned => simp [State.staged, here, split]
      | handler => simp [State.staged, here]
  · have stillOpen : after.closed = false := afterClosed.trans unclosed
    exact ⟨fun _ => noClosing, by simp [stillOpen], by simp [stillOpen], by simp [stillOpen]⟩

theorem Sound.returnReady {taken : State}
    (split : (state.streams entry.partitionStream).ready = moved ++ rest)
    (count : moved.length + left = entry.eventsCount)
    (takenStreams : taken.streams = (state.changeStream entry.partitionStream
      fun queue => { queue with ready := rest }).streams)
    (takenEvents : taken.events = entry.remaining left others)
    (takenPushed : taken.pushed = state.pushed) (takenClosed : taken.closed = state.closed)
    (takenCloseEvent : taken.closeEvent = state.closeEvent)
    (takenBefore : taken.returnedBeforeClose = state.returnedBeforeClose)
    (takenHanded : taken.handed = state.handed)
    (items : ∀ other, event.itemsOf other = if other = entry.partitionStream
      then moved.flatMap RawPartitionStreamEvent.items else [])
    (ordinary : event.isSessionClosedEvent = false) :
    Sound env spared (taken.hand .returned event) := by
  refine sound.takeReady events split count takenStreams takenEvents takenPushed takenClosed
    takenCloseEvent takenBefore (fun channel other => ?_) (fun other member => ?_)
  · have same : taken.itemsHanded channel other = state.itemsHanded channel other := by
      simp only [State.itemsHanded, takenHanded]
    rw [State.itemsHanded_hand, same, items]
    cases channel <;> simp
  · have same : taken.returned = state.returned := by simp only [State.returned, takenHanded]
    rw [State.returned_hand, same] at member
    rcases mem_append.mp member with earlier | now
    · exact .inl earlier
    · rw [mem_singleton.mp now]
      exact .inr ordinary

/-- What a retrieval promises: with the event it found given to the user, the queue is
sound.  It finds none only if the byte limit is used up or there are no events. -/
def Retrieves (env : Environment) (spared : Nat → Prop) (before : State)
    (result : Option UserEvent × Nat) (after : State) : Prop :=
  match result.1 with
  | none => Sound env spared after ∧ (result.2 = 0 ∨ after.hasEventsImpl = false)
  | some event => Sound env spared (after.hand .returned event) ∧
      (event.isSessionClosedEvent = false →
        announcedCount after.events < announcedCount before.events)

theorem Sound.front : state.closed = false ∧ entry.Counted ∧ ∃ event rest,
      (state.streams entry.partitionStream).ready = event :: rest ∧
        event.isDataEvent = entry.hasDataEvents := by
  have unclosed : state.closed = false := by
    by_contra closed
    have empty := sound.emptied (by simpa using closed)
    simp [events] at empty
  have counted := sound.counted entry (by simp [events])
  have announced := sound.announced unclosed entry.partitionStream
  obtain ⟨count, more⟩ := Nat.exists_eq_succ_of_ne_zero (Nat.ne_of_gt counted.positive)
  rw [events, announcedKinds_cons, if_pos rfl, more, replicate_succ] at announced
  refine ⟨unclosed, counted, ?_⟩
  cases ready : (state.streams entry.partitionStream).ready with
  | nil => simp [ready] at announced
  | cons event rest =>
    rw [ready, map_cons, cons_append, List.cons.injEq] at announced
    exact ⟨event, rest, rfl, announced.1.symm⟩

theorem getDataEventImpl_spec {task : Nat} {decompressed : DecompressedData}
    (ready : (state.streams entry.partitionStream).ready = .data task decompressed :: rest)
    (positive : 0 < maxByteSize) :
    (getDataEventImpl entry.partitionStream maxByteSize).wp
      ⟨fun result after => announcedCount after.events < announcedCount state.events ∧
          match result.1 with
          | none => Sound env spared after | some event => event.isSessionClosedEvent = false ∧
              Sound env spared (after.hand .returned event),
        fun _ _ => False, fun _ => False⟩ state := by
  obtain ⟨unclosed, counted, _⟩ := sound.front events
  have streamSound := sound.streams entry.partitionStream
  have head : (state.streams entry.partitionStream).readyDataInTheHead
      (state.streams entry.partitionStream).ready = true := by
    rw [ready]
    exact (PartitionStream.isReadyData_iff _ _ _).mpr
      (streamSound.readyTasks task decompressed (by simp [ready]))
  simp only [getDataEventImpl, events, wp_rules, beq_self_eq_true,
    decide_eq_true counted.positive, forall_const, reduceCtorEq, IsEmpty.forall_iff, and_true]
  refine wp_then (getRawDataEventImpl_spec env entry.eventsCount maxByteSize head
    (fun other data member => streamSound.uniform other data (List.mem_append_left _ member))) ?_
  rintro taken _ ⟨rfl, moved, split, _, items, count, some⟩
  have nonempty := List.length_pos_iff.mpr (some counted.positive positive)
  have fewer : announcedCount (entry.remaining taken.maxEventsCount others) <
      announcedCount (entry :: others) := by
    rw [announcedCount_remaining]
    simp only [announcedCount, List.map_cons, List.sum_cons]
    omega
  refine ⟨fun nothing => ⟨fewer, ?_⟩, fun _ => ⟨fewer, rfl, ?_⟩⟩
  · have noItems : moved.flatMap RawPartitionStreamEvent.items = [] := by
      rw [← items]
      simp only [Bool.and_eq_true, List.isEmpty_iff] at nothing
      simp [dataItems, nothing]
    refine sound.takeReady events split count rfl rfl rfl rfl rfl rfl (fun channel other => ?_)
      (fun event member => .inl member)
    rw [noItems, ite_self, List.append_nil]
    rfl
  · refine sound.returnReady events split count rfl rfl rfl rfl rfl rfl rfl (fun other => ?_) rfl
    simp only [UserEvent.itemsOf, items, eq_comm]

theorem getServiceEvent_spec {event : ServiceEvent}
    (ready : (state.streams entry.partitionStream).ready = .service event :: rest) :
    (getServiceEvent env entry.partitionStream event).wp
      ⟨fun result after => announcedCount after.events < announcedCount state.events ∧
          result.isSessionClosedEvent = false ∧ Sound env spared (after.hand .returned result),
        fun _ _ => False, fun _ => False⟩ state := by
  obtain ⟨_, counted, other, _, same, kind⟩ := sound.front events
  rw [ready] at same
  obtain ⟨rfl, _⟩ := same
  have single : 1 + 0 = entry.eventsCount := (counted.single kind.symm).symm
  have taken : (state.changeStream entry.partitionStream .popEvent).streams =
      (state.changeStream entry.partitionStream fun queue => { queue with ready := rest }).streams := by
    simp [State.changeStream, PartitionStream.popEvent, ready]
  have gone : state.events.tail = entry.remaining 0 others := by simp [events, ReadSessionEventInfo.remaining]
  have fewer : announcedCount state.events.tail < announcedCount state.events := by
    rw [gone, announcedCount_remaining, events]
    simp only [announcedCount, map_cons, sum_cons]
    omega
  have alone : (state.streams entry.partitionStream).ready = [.service event] ++ rest := ready
  simp only [getServiceEvent, wp_rules]
  have items : ∀ other, (UserEvent.service entry.partitionStream event).itemsOf other =
      if other = entry.partitionStream then
        [.service event].flatMap RawPartitionStreamEvent.items else [] := by
    simp [UserEvent.itemsOf, RawPartitionStreamEvent.items, eq_comm]
  exact ⟨fun _ => ⟨fewer, rfl, sound.returnReady events alone single taken gone rfl rfl rfl rfl
    rfl items rfl⟩, fun _ => ⟨fewer, rfl, sound.returnReady events alone single taken gone rfl rfl
    rfl rfl rfl items rfl⟩⟩

end

theorem Sound.returnClosing (closing : state.closeEvent = some status) :
    Sound env spared (state.hand .returned (.sessionClosed status)) := by
  have closed : state.closed = true := by rw [← sound.closing, closing]; rfl
  refine { sound with delivers := fun channel stream => ?_, closingLast := ?_ }
  · refine (sound.delivers channel stream).move [] ?_ rfl rfl ?_
    · simp [UserEvent.itemsOf]
    · cases channel <;> rfl
  · have bound := sound.closingLast.bound closed
    have sameBefore : (state.hand .returned (.sessionClosed status)).returnedBeforeClose =
        state.returnedBeforeClose := rfl
    refine ⟨fun unclosed => ?_, fun _ => ?_, fun _ => ?_, fun _ => ?_⟩
    · have impossible : state.closed = false := unclosed
      simp [closed] at impossible
    · rw [State.returned_hand, sameBefore, take_append_of_le_length bound]
      exact sound.closingLast.before closed
    · rw [State.returned_hand, sameBefore, drop_append_of_le_length bound]
      intro event member
      rcases mem_append.mp member with earlier | now
      · exact sound.closingLast.after closed event earlier
      · rw [mem_singleton.mp now]
        rfl
    · rw [State.returned_hand, length_append]
      exact Nat.le_trans bound (Nat.le_add_right _ _)

theorem getEventLoop_spec {fuel : Nat}
    (enough : announcedCount state.events < fuel) (positive : 0 < maxByteSize) :
    (getEventLoop env fuel maxByteSize).wp
      ⟨fun result after => Retrieves env spared state result after,
        fun _ _ => False, fun _ => False⟩ state := by
  induction fuel generalizing state maxByteSize with
  | zero => exact absurd enough (by simp)
  | succ fuel ih =>
    simp only [getEventLoop, wp_rules]
    split
    · rename_i none
      simp only [wp_pure]
      cases closing : state.closeEvent with
      | none => exact ⟨sound, .inr (by simp [State.hasEventsImpl, none, closing])⟩
      | some status =>
        exact ⟨sound.returnClosing closing, fun impossible => by
          simp [UserEvent.isSessionClosedEvent] at impossible⟩
    · rename_i entry others events
      obtain ⟨_, _, event, rest, ready, _⟩ := sound.front events
      have top : (state.streams entry.partitionStream).topEvent = some event := by
        simp [PartitionStream.topEvent, ready]
      rw [top]
      cases event with
      | data task decompressed =>
        simp only [wp_bind]
        refine wp_then (getDataEventImpl_spec sound events ready positive) ?_
        rintro ⟨found, remaining⟩ middle ⟨fewer, outcome⟩
        cases found with
        | some found => exact ⟨outcome.2, fun _ => fewer⟩
        | none =>
          simp only [Option.isNone_none, Bool.true_and, bne_iff_ne, wp_rules]
          refine ⟨fun left => ?_, fun usedUp => ⟨outcome, .inl (by simpa using usedUp)⟩⟩
          refine wp_then (ih outcome (Nat.lt_of_lt_of_le fewer (Nat.lt_succ_iff.mp enough))
            (Nat.pos_of_ne_zero left)) ?_
          rintro ⟨later, _⟩ after done
          cases later with
          | none => exact done
          | some later => exact ⟨done.1, fun ordinary => Nat.lt_trans (done.2 ordinary) fewer⟩
      | service event =>
        simp only [wp_rules]
        refine wp_then (getServiceEvent_spec sound events ready) ?_
        exact fun _ _ done => ⟨done.2.2, fun _ => done.1⟩

theorem getEventImpl_spec (positive : 0 < maxByteSize) :
    (getEventImpl env maxByteSize).wp ⟨fun result after => Retrieves env spared state result after,
        fun _ _ => False, fun _ => False⟩ state := by
  exact getEventLoop_spec sound (Nat.lt_succ_self _) positive

/-- The loop of `GetEvents`.  Each ordinary event lowers the number of announced ones;
two more turns are needed to find that nothing is left. -/
theorem getEventsLoop_spec {fuel : Nat} {maxCount : Option Nat}
    (enough : announcedCount state.events + 2 ≤ fuel ∨
      (0 < fuel ∧ (maxByteSize = 0 ∨ state.hasEventsImpl = false))) :
    (getEventsLoop env fuel maxCount maxByteSize).wp
      ⟨fun _ after => Sound env spared after, fun _ _ => False, fun _ => False⟩ state := by
  induction fuel generalizing state maxByteSize maxCount with
  | zero => omega
  | succ fuel ih =>
    simp only [getEventsLoop, wp_rules, Bool.and_eq_true, decide_eq_true_eq]
    refine ⟨fun goesOn => ?_, fun _ => sound⟩
    obtain ⟨⟨some, _⟩, positive⟩ := goesOn
    have bound : announcedCount state.events + 1 ≤ fuel := by
      rcases enough with bound | ⟨_, usedUp | none⟩
      · omega
      · omega
      · simp [none] at some
    refine wp_then (getEventImpl_spec sound positive) ?_
    rintro ⟨found, remaining⟩ middle outcome
    cases found with
    | none => exact ih outcome.1 (.inr ⟨by omega, outcome.2⟩)
    | some event =>
      simp only [wp_rules]
      refine ⟨fun _ => outcome.1, fun ordinary => ih outcome.1 (.inl ?_)⟩
      have fewer := outcome.2 (by simpa using ordinary)
      show announcedCount middle.events + 2 ≤ fuel
      omega

end

theorem getEvents_spec (maxEventsCount : Option Nat) (maxByteSize : Nat)
    (sound : Sound env spared state) :
    (getEvents env maxEventsCount maxByteSize).wp
      (.keeping (Sound env spared) (fun _ => False)) state := by
  simp only [getEvents, wp_rules]
  refine ⟨fun _ => sound, fun _ => ?_⟩
  exact wp_imp (getEventsLoop_spec sound (.inl (Nat.le_refl _))) (fun _ _ => id)

theorem getEvent_spec (maxByteSize : Nat) (sound : Sound env spared state) :
    (getEvent env maxByteSize).wp (.keeping (Sound env spared) (fun _ => False)) state := by
  simp only [getEvent, wp_rules]
  refine ⟨fun _ => sound, fun positive => ⟨fun _ => ?_, fun _ => sound⟩⟩
  refine wp_imp (getEventImpl_spec sound (Nat.pos_of_ne_zero positive)) ?_
  rintro ⟨found, _⟩ middle outcome
  cases found with
  | none => exact outcome.1
  | some event => exact outcome.1

def PartitionStream.Shrinks (before after : PartitionStream) : Prop :=
  (after.ready = before.ready ∧ after.notReady = before.notReady ∧ after.tasks = before.tasks) ∨
    (after.ready = [] ∧ after.notReady = [])

theorem PartitionStream.Shrinks.sound {before after : PartitionStream}
    (shrinks : before.Shrinks after) (sound : before.Sound env) : after.Sound env := by
  rcases shrinks with ⟨ready, notReady, tasks⟩ | ⟨ready, notReady⟩
  · have sameState : after.taskState = before.taskState := by
      funext task
      simp only [taskState, tasks]
    constructor
    · rw [ready, sameState]
      exact sound.readyTasks
    · rw [notReady, tasks, sameState]
      exact sound.heldTasks
    · rw [ready, notReady]
      exact sound.uniform
    · rw [notReady]
      exact sound.bypassed
  · constructor <;> simp [ready, notReady]

theorem Sound.shrink (sound : Sound env spared state) (closed : after.closed = true)
    (events : after.events = []) (closeEvent : after.closeEvent.isSome = true)
    (pushed : after.pushed = state.pushed) (items : ∀ channel stream,
      after.itemsHanded channel stream = state.itemsHanded channel stream)
    (closingLast : after.ClosingLast)
    (shrinks : ∀ stream, (state.streams stream).Shrinks (after.streams stream)) :
    Sound env spared after := by
  refine ⟨fun stream => (shrinks stream).sound (sound.streams stream), fun unclosed => ?_,
    by simp [events], fun _ => events, by rw [closeEvent, closed], fun channel stream => ?_,
    closingLast⟩
  · simp [closed] at unclosed
  · obtain ⟨given, same, faithful⟩ := sound.delivers channel stream
    have sameIntact : after.Intact stream ↔ state.Intact stream := by
      unfold State.Intact
      rw [pushed]
    have shorter : (after.relay env channel stream given).line <+:
        (state.relay env channel stream given).line := by
      refine (prefix_append_right_inj given).mpr ?_
      rcases shrinks stream with ⟨ready, notReady, _⟩ | ⟨ready, notReady⟩
      · cases channel <;> simp [State.relay, State.staged, ready, notReady]
      · cases channel <;> simp [State.relay, State.staged, ready, notReady]
    have closedRelay := faithful.close shorter (by simp [State.relay, pushed])
    exact ⟨given, (items channel stream).trans same, closedRelay.mono
      (fun whole => ⟨whole.1, sameIntact.mp whole.2⟩) (by simp [closed])⟩

theorem State.extractAnnounced_shrinks (state : State) (stream : Nat) :
    (state.streams stream).Shrinks (state.extractAnnounced.streams stream) := by
  have step : ∀ (events : List ReadSessionEventInfo) (streams : Nat → PartitionStream),
      (state.streams stream).Shrinks (streams stream) →
      (state.streams stream).Shrinks (events.foldl (fun streams event =>
        if (streams event.partitionStream).hasEvents then
          Function.update streams event.partitionStream
            (streams event.partitionStream).extractQueue
        else streams) streams stream) := by
    intro events
    induction events with
    | nil => exact fun _ => id
    | cons event rest ih =>
      intro streams shrinks
      refine ih _ ?_
      dsimp only
      split
      · by_cases here : stream = event.partitionStream
        · subst here
          rw [Function.update_self]
          exact .inr ⟨rfl, rfl⟩
        · rwa [Function.update_of_ne here]
      · exact shrinks
  exact step state.events state.streams (.inl ⟨rfl, rfl, rfl⟩)

theorem State.ClosingLast.close {before : State} (closingLast : before.ClosingLast)
    (unclosed : before.closed = false) (closed : after.closed = true)
    (returned : after.returned = before.returned)
    (beforeClose : after.returnedBeforeClose = before.returned.length) : after.ClosingLast := by
  have ordinary := closingLast.ordinary unclosed
  constructor <;> simp only [closed, returned, beforeClose, take_length]
  · exact fun impossible => by simp at impossible
  · exact fun _ => ordinary
  · simp
  · simp

theorem close_spec (status : Nat) (sound : Sound env spared state) :
    (close env status).wp
      ⟨fun _ after => Sound env spared after, fun _ _ => False, fun _ => False⟩ state := by
  simp only [close, wp_rules]
  refine ⟨fun _ => sound, fun notClosed => ?_⟩
  have unclosed : state.closed = false := by simpa using notClosed
  refine ⟨fun _ => ?_, fun _ => ?_⟩
  · refine sound.shrink rfl rfl rfl rfl (fun channel stream => ?_)
      (sound.closingLast.close unclosed rfl ?_ rfl) state.extractAnnounced_shrinks
    · rw [State.itemsHanded_hand, UserEvent.itemsOf, ite_self, append_nil]
      rfl
    · rw [State.returned_hand_handler]
      rfl
  · exact sound.shrink rfl rfl rfl rfl (fun _ _ => rfl)
      (sound.closingLast.close unclosed rfl rfl rfl) state.extractAnnounced_shrinks

theorem clearAllEvents_spec (sound : Sound env spared state) (closed : state.closed = true) :
    clearAllEvents.wp
      ⟨fun _ after => Sound env spared after, fun _ _ => False, fun _ => False⟩ state := by
  exact sound.shrink closed rfl (sound.closing.trans closed) rfl (fun _ _ => rfl)
    (sound.closingLast.congr rfl rfl rfl) state.extractAnnounced_shrinks

theorem extractPartitionStreamQueue_spec (stream : Nat) (sound : Sound env spared state)
    (closed : state.closed = true) :
    (extractPartitionStreamQueue stream).wp
      ⟨fun _ after => Sound env spared after, fun _ _ => False, fun _ => False⟩ state := by
  refine sound.shrink closed (sound.emptied closed) (sound.closing.trans closed) rfl
    (fun _ _ => rfl) (sound.closingLast.congr rfl rfl rfl) (fun other => ?_)
  by_cases here : other = stream
  · subst here
    rw [State.changeStream_self]
    exact .inr ⟨rfl, rfl⟩
  · rw [State.changeStream_other _ _ here]
    exact .inl ⟨rfl, rfl, rfl⟩

end YdbSdk.Topic.ReadSession
