import YdbSdk.Topic.Federated.WriteSession
import YdbSdk.Data.Outbox
import YdbSdk.Data.Tally

namespace YdbSdk.Topic.Federated.WriteSession

open YdbSdk.Control YdbSdk.Data Code List

/-! # What the federated write session sends, and sends again

The two queues with the subsessions are an outbox that changes its link.  Beside it there
are the strings that the payloads live in, the free space of the buffer, and the tokens.
-/

/-- Each message shows its own string, and no two live in one place. -/
structure Stored (nextAddress : Nat) (messages : List WrappedWriteMessage) : Prop where
  views : ∀ message ∈ messages, message.message.data = ⟨message.address, message.data.length⟩
  distinct : (messages.map WrappedWriteMessage.address).Nodup
  fresh : ∀ message ∈ messages, message.address < nextAddress

variable {messages first second rest : List WrappedWriteMessage} {front message : WrappedWriteMessage}
  {nextAddress later : Nat}

section

variable (stored : Stored nextAddress messages)
include stored

theorem Stored.mono (more : nextAddress ≤ later) : Stored later messages :=
  { stored with fresh := fun message member => (stored.fresh message member).trans_le more }

theorem Stored.sublist (fewer : first.Sublist messages) : Stored nextAddress first where
  views message member := stored.views message (fewer.subset member)
  distinct := stored.distinct.sublist (fewer.map _)
  fresh message member := stored.fresh message (fewer.subset member)

theorem Stored.perm (same : first.Perm messages) : Stored nextAddress first where
  views message member := stored.views message (same.subset member)
  distinct := (same.map _).nodup_iff.mpr stored.distinct
  fresh message member := stored.fresh message (same.subset member)

theorem Stored.cons_moved : Stored (nextAddress + 1) (front.moved nextAddress :: messages) where
  views message member := by
    cases member with
    | head => rfl
    | tail _ old => exact stored.views message old
  distinct := by
    rw [map_cons, nodup_cons]
    refine ⟨?_, stored.distinct⟩
    intro taken
    obtain ⟨other, old, same⟩ := mem_map.mp taken
    have older := stored.fresh other old
    rw [same] at older
    exact Nat.lt_irrefl _ older
  fresh message member := by
    cases member with
    | head => exact Nat.lt_succ_self _
    | tail _ old => exact Nat.lt_succ_of_lt (stored.fresh message old)

omit stored in
theorem Stored.move (stored : Stored nextAddress (first ++ front :: rest)) :
    Stored (nextAddress + 1) (first ++ front.moved nextAddress :: rest) := by
  have others : Stored nextAddress (first ++ rest) :=
    stored.sublist ((List.Sublist.refl first).append (sublist_cons_self front rest))
  exact others.cons_moved.perm perm_middle

theorem Stored.concat : Stored (nextAddress + 1) (messages ++ [front.moved nextAddress]) :=
  stored.cons_moved.perm perm_append_comm

omit stored in
theorem moveAll_cons (address : Nat) (message : WrappedWriteMessage)
    (messages : List WrappedWriteMessage) :
    moveAll address (message :: messages) =
      message.moved address :: moveAll (address + 1) messages := by
  simp [moveAll]

omit stored in
theorem Stored.moveAll (stored : Stored nextAddress (first ++ second)) :
    Stored (nextAddress + second.length) (first ++ moveAll nextAddress second) := by
  induction second generalizing nextAddress first with
  | nil => exact stored
  | cons message second ih =>
    rw [moveAll_cons, length_cons, append_cons, ← Nat.add_assoc, Nat.add_right_comm]
    apply ih
    rw [← append_cons]
    exact stored.move

/-- The place and the bytes of a message, and what its view shows. -/
def WrappedWriteMessage.slot (message : WrappedWriteMessage) : Nat × List UInt8 × View :=
  (message.address, message.data, message.message.data)

theorem Stored.of_slots
    (same : first.map WrappedWriteMessage.slot = messages.map WrappedWriteMessage.slot) :
    Stored nextAddress first := by
  have old : ∀ message ∈ first, ∃ other ∈ messages, other.slot = message.slot := by
    intro message member
    exact mem_map.mp (same ▸ mem_map_of_mem member)
  constructor
  · intro message member
    obtain ⟨other, isOld, slot⟩ := old message member
    have view := stored.views other isOld
    simp only [WrappedWriteMessage.slot, Prod.mk.injEq] at slot
    rw [← slot.1, ← slot.2.1, ← slot.2.2]
    exact view
  · have addresses := congrArg (List.map Prod.fst) same
    simp only [map_map] at addresses
    have distinct := stored.distinct
    exact (show _ = _ from addresses) ▸ distinct
  · intro message member
    obtain ⟨other, isOld, slot⟩ := old message member
    have place : other.address = message.address := congrArg Prod.fst slot
    rw [← place]
    exact stored.fresh other isOld

end

theorem find_address (distinct : (messages.map WrappedWriteMessage.address).Nodup)
    (member : message ∈ messages) :
    messages.find? (fun other => other.address = message.address) = some message := by
  induction messages with
  | nil => cases member
  | cons other messages ih =>
    rw [map_cons, nodup_cons] at distinct
    cases member with
    | head => simp
    | tail _ old =>
      have different : other.address ≠ message.address := by
        intro same
        exact distinct.1 (same ▸ mem_map_of_mem old)
      rw [List.find?_cons_of_neg (by simpa using different)]
      exact ih distinct.2 old

theorem Stored.bytes {state : State}
    (stored : Stored state.nextAddress (state.toGetAck ++ state.toPassDown))
    (member : message ∈ state.toGetAck ++ state.toPassDown) :
    state.bytes message.message.data = some message.data := by
  rw [State.bytes, stored.views message member]
  simp [find_address stored.distinct member]

def WrappedWriteMessage.content (message : WrappedWriteMessage) : Content :=
  ⟨message.data, message.message.options⟩

def Subsession.link (subsession : Subsession) : Link Content :=
  ⟨subsession.opened, subsession.received, subsession.acknowledged⟩

/-- The session as an outbox whose links are the subsessions. -/
def State.outbox (state : State) : Outbox Content where
  accepted := state.accepted
  acknowledged := state.acknowledged
  passed := state.toGetAck.map WrappedWriteMessage.content
  waiting := state.toPassDown.map WrappedWriteMessage.content
  links := state.subsessions.map Subsession.link

def totalSize (messages : List WrappedWriteMessage) : Nat :=
  (messages.map fun message => message.data.length).sum

/-- `owed` counts the acknowledgements given by the current subsession that the handler
has still to take off the queue. -/
structure Sound (settings : Settings) (owed : Nat) (state : State) : Prop where
  faithful : state.outbox.Faithful owed
  stored : Stored state.nextAddress (state.toGetAck ++ state.toPassDown)
  space : state.bufferFreeSpace =
    i64 (settings.maxMemoryUsage - totalSize (state.toGetAck ++ state.toPassDown))
  generation : state.subsessionGeneration = state.subsessions.length
  current : ∀ former last, state.subsessions = former ++ [last] →
    state.subsession = some former.length ∧ last.token = state.pendingToken
  unopened : state.subsessions = [] → state.subsession = none ∧ state.pendingToken = false

variable {settings : Settings} {state : State} {owed : Nat} {index count : Nat}

theorem i64_i64_add (first second : Int) : i64 (i64 first + second) = i64 (first + second) := by
  simp [i64]

theorem sound_start : Sound settings 0 (start settings) where
  faithful := .empty
  stored := ⟨nofun, .nil, nofun⟩
  space := by simp [start, totalSize]
  generation := rfl
  current former last opened := by simp [start] at opened
  unopened _ := ⟨rfl, rfl⟩

/-- A state with the queues, the space and the subsessions of a sound one is sound, whatever
flush promises its messages have. -/
theorem Sound.reflush {after : State} (sound : Sound settings owed state)
    (outbox : after.outbox = state.outbox)
    (slots : (after.toGetAck ++ after.toPassDown).map WrappedWriteMessage.slot =
      (state.toGetAck ++ state.toPassDown).map WrappedWriteMessage.slot)
    (address : after.nextAddress = state.nextAddress)
    (space : after.bufferFreeSpace = state.bufferFreeSpace)
    (generation : after.subsessionGeneration = state.subsessionGeneration)
    (subsession : after.subsession = state.subsession)
    (token : after.pendingToken = state.pendingToken)
    (subsessions : after.subsessions = state.subsessions) : Sound settings owed after where
  faithful := outbox ▸ sound.faithful
  stored := address ▸ sound.stored.of_slots slots
  space := by
    have sizes := congrArg (List.map fun slot => slot.2.1.length) slots
    simp only [map_map] at sizes
    rw [space, sound.space]
    exact congrArg (fun sizes => i64 (settings.maxMemoryUsage - (List.sum sizes : Nat))) sizes.symm
  generation := by rw [generation, subsessions, sound.generation]
  current := by rw [subsessions, subsession, token]; exact sound.current
  unopened := by rw [subsessions, subsession, token]; exact sound.unopened

theorem Sound.opened (sound : Sound settings owed state) (pending : state.pendingToken = true) :
    ∃ former last, state.subsessions = former ++ [last] ∧ state.subsession = some former.length := by
  rcases eq_nil_or_concat state.subsessions with none | ⟨former, last, opened⟩
  · have unopened := sound.unopened none
    simp [pending] at unopened
  · rw [concat_eq_append] at opened
    exact ⟨former, last, opened, (sound.current former last opened).1⟩

theorem writeToSubsession_wp (current : state.subsession = some former.length)
    (opened : state.subsessions = former ++ [last]) (queue : state.toGetAck = first ++ [message])
    (stored : Stored state.nextAddress (state.toGetAck ++ state.toPassDown)) :
    writeToSubsession.wp contract state ↔ contract.returns () { state with
      toGetAck := first ++ [{ message with message := message.message.taken }]
      subsessions := former ++
        [{ last with received := last.received ++ [message.content], token := false }] } := by
  have shown : state.bytes message.message.data = some message.data :=
    stored.bytes (by simp [queue])
  simp [writeToSubsession, current, queue, shown, opened, modify_append_last, WrappedWriteMessage.content]

theorem maybeWriteImpl_sound (sound : Sound settings 0 state) :
    maybeWriteImpl.wp (.keeping (Sound settings 0) (fun _ => False)) state := by
  cases pending : state.pendingToken with
  | false => simpa [maybeWriteImpl, pending] using sound
  | true =>
    cases queue : state.toPassDown with
    | nil => simpa [maybeWriteImpl, pending, queue] using sound
    | cons front rest =>
      obtain ⟨former, last, opened, current⟩ := sound.opened pending
      have stored : Stored (state.nextAddress + 1)
          (state.toGetAck ++ front.moved state.nextAddress :: rest) :=
        Stored.move (queue ▸ sound.stored)
      simp only [maybeWriteImpl, pending, queue, wp_rules]
      rw [writeToSubsession_wp (by exact current) (by exact opened) rfl (by simpa using stored)]
      have head : state.outbox.waiting =
          front.content :: rest.map WrappedWriteMessage.content := by
        simp [State.outbox, queue]
      have linked : state.outbox.links = former.map Subsession.link ++ [last.link] := by
        simp [State.outbox, opened]
      constructor
      · simpa [State.outbox, Subsession.link, WrappedWriteMessage.content,
          WrappedWriteMessage.moved, WriteMessage.taken] using sound.faithful.pass head linked
      · apply stored.of_slots
        simp [WrappedWriteMessage.slot, WriteMessage.taken]
      · simp [sound.space, queue, totalSize, WrappedWriteMessage.moved]
      · simp [sound.generation, opened]
      · intro others newest same
        obtain ⟨rfl, rfl⟩ := append_singleton_inj.mp same
        exact ⟨current, rfl⟩
      · exact fun none => by simp at none

theorem goOn_sound (works : List Work) :
    (goOn works).Upholds (Sound settings owed) (fun _ => False) :=
  fun _ sound => { sound with }

theorem totalSize_append (first second : List WrappedWriteMessage) :
    totalSize (first ++ second) = totalSize first + totalSize second := by
  simp [totalSize]

theorem totalSize_singleton (message : WrappedWriteMessage) :
    totalSize [message] = message.data.length := by
  simp [totalSize]

theorem writeInternal_sound {data : List UInt8} {message : WriteMessage} {now : Nat}
    (sound : Sound settings 0 state) :
    (writeInternal data message now).wp (.keeping (Sound settings 0) (fun _ => False)) state := by
  simp only [writeInternal, wp_rules]
  refine wp_imp (maybeWriteImpl_sound ?_) (fun _ after => goOn_sound _ after)
  constructor
  · simpa [State.outbox, WrappedWriteMessage.content, WrappedWriteMessage.moved, WriteMessage.wrap]
      using sound.faithful.accept
  · rw [← append_assoc]
    exact (sound.stored.mono (Nat.le_succ _)).concat
  · change i64 (state.bufferFreeSpace - data.length) = i64 (settings.maxMemoryUsage -
      totalSize (state.toGetAck ++ (state.toPassDown ++ [_])))
    rw [sound.space, ← append_assoc, totalSize_append _ [_], totalSize_singleton,
      @Int.sub_eq_add_neg (i64 _), i64_i64_add]
    congr 1
    simp only [WrappedWriteMessage.moved, WriteMessage.wrap]
    omega
  · exact sound.generation
  · exact sound.current
  · exact sound.unopened

theorem moveAll_contents (address : Nat) (messages : List WrappedWriteMessage) :
    (moveAll address messages).map WrappedWriteMessage.content =
      messages.map WrappedWriteMessage.content := by
  induction messages generalizing address with
  | nil => rfl
  | cons message messages ih =>
    rw [moveAll_cons, map_cons, ih]
    rfl

theorem totalSize_moveAll (address : Nat) (messages : List WrappedWriteMessage) :
    totalSize (moveAll address messages) = totalSize messages := by
  have contents := congrArg (List.map fun content => content.data.length)
    (moveAll_contents address messages)
  simp only [map_map] at contents
  exact congrArg List.sum contents

theorem openSubsessionImpl_sound {db : DbInfo} (sound : Sound settings 0 state) :
    (openSubsessionImpl db).wp (.keeping (Sound settings 0) (fun _ => False)) state := by
  rw [openSubsessionImpl, wp_update]
  constructor
  · simpa [State.outbox, moveAll_contents, Subsession.link] using sound.faithful.switch
  · exact sound.stored.moveAll
  · simp [sound.space, totalSize_append, totalSize_moveAll]
  · simp [sound.generation]
  · intro former last same
    obtain ⟨rfl, rfl⟩ := append_singleton_inj.mp same
    -- There is no subsession before the first, and then there is no token either.
    cases subsession : state.subsession with
    | some index => simp
    | none =>
      rcases eq_nil_or_concat state.subsessions with unopened | ⟨former, last, opened⟩
      · simp [(sound.unopened unopened).2]
      · rw [concat_eq_append] at opened
        have current := (sound.current former last opened).1
        rw [subsession] at current
        cases current
  · exact fun none => by simp at none

theorem completeFlush_contents (messages : List WrappedWriteMessage) :
    (completeFlush messages).map WrappedWriteMessage.content =
      messages.map WrappedWriteMessage.content := by
  simp [completeFlush, WrappedWriteMessage.content]

theorem completeFlush_slots (messages : List WrappedWriteMessage) :
    (completeFlush messages).map WrappedWriteMessage.slot =
      messages.map WrappedWriteMessage.slot := by
  simp [completeFlush, WrappedWriteMessage.slot]

theorem closeImpl_sound : closeImpl.Upholds (Sound settings owed) (fun _ => False) := by
  intro state sound
  simp only [closeImpl, wp_rules]
  refine ⟨fun _ => sound, fun _ => ?_⟩
  apply sound.reflush
  · simp [State.outbox, completeFlush_contents]
  · simp [completeFlush_slots]
  all_goals rfl

theorem close_sound : close.Upholds (Sound settings owed) (fun _ => False) := by
  intro state sound
  simp only [close, wp_rules]
  exact ⟨fun _ => sound, fun _ => { sound with }⟩

theorem promiseFlush_contents (queue : List WrappedWriteMessage) (promise : Nat) :
    (promiseFlush queue promise).1.map WrappedWriteMessage.content =
      queue.map WrappedWriteMessage.content := by
  rcases eq_nil_or_concat queue with rfl | ⟨earlier, last, rfl⟩ <;>
    simp [promiseFlush, WrappedWriteMessage.content]

theorem promiseFlush_slots (queue : List WrappedWriteMessage) (promise : Nat) :
    (promiseFlush queue promise).1.map WrappedWriteMessage.slot =
      queue.map WrappedWriteMessage.slot := by
  rcases eq_nil_or_concat queue with rfl | ⟨earlier, last, rfl⟩ <;>
    simp [promiseFlush, WrappedWriteMessage.slot]

theorem flush_sound : flush.Upholds (Sound settings owed) (fun _ => False) := by
  intro state sound
  simp only [flush, State.answerFlush, wp_rules]
  refine ⟨fun _ => { sound with }, fun _ => ⟨fun _ => ?_, fun _ => ⟨fun _ => ?_, fun _ => { sound with }⟩⟩⟩
  · apply sound.reflush
    · simp [State.outbox, promiseFlush_contents]
    · simp [promiseFlush_slots]
    all_goals rfl
  · apply sound.reflush
    · simp [State.outbox, promiseFlush_contents]
    · simp [promiseFlush_slots]
    all_goals rfl

theorem scheduleFederationStateUpdateImpl_sound (hasContext : Bool) :
    (scheduleFederationStateUpdateImpl hasContext).Upholds (Sound settings owed)
      (fun _ => False) := by
  intro state sound
  rw [scheduleFederationStateUpdateImpl, wp_ite]
  exact ⟨fun _ => { sound with }, fun _ => closeImpl_sound state sound⟩

/-- The assertions outside the handlers of the subsessions. -/
def Assertion.ofFederation (assertion : Assertion) : Prop :=
  assertion = .noDatabases ∨ assertion = .unreachable

theorem onFederationStateUpdateImpl_sound
    (sound : Sound settings 0 state) :
    (onFederationStateUpdateImpl settings federationState hasContext).wp
      (.keeping (Sound settings 0) Assertion.ofFederation) state := by
  have schedules : ∀ after, Sound settings 0 after →
      (scheduleFederationStateUpdateImpl hasContext).wp
        (.keeping (Sound settings 0) Assertion.ofFederation) after := fun after kept =>
    wp_imp (scheduleFederationStateUpdateImpl_sound hasContext after kept) (fun _ _ => id)
  have closes : ∀ after, Sound settings 0 after →
      closeImpl.wp (.keeping (Sound settings 0) Assertion.ofFederation) after := fun after kept =>
    wp_imp (closeImpl_sound after kept) (fun _ _ => id)
  simp only [onFederationStateUpdateImpl, wp_rules]
  refine ⟨fun _ => ⟨fun _ => ?_, fun _ => .inl rfl⟩, fun _ => closes state sound⟩
  cases selectDatabaseImpl settings.toSelectSettings federationState.dbInfos
      federationState.selfLocation with
  | failed status =>
    simp only [retryOrClose, wp_rules]
    exact ⟨fun _ => schedules _ { sound with }, fun _ => closes _ { sound with }⟩
  | unreachable => exact .inr rfl
  | database db =>
    simp only [wp_rules]
    refine ⟨fun _ => ?_, fun _ => schedules _ { sound with }⟩
    exact wp_imp (openSubsessionImpl_sound { sound with })
      (fun _ after kept => schedules after kept)

theorem updateFederationState_sound
    (sound : Sound settings 0 state) :
    (updateFederationState settings federationState hasContext).wp
      (.keeping (Sound settings 0) Assertion.ofFederation) state := by
  simp only [updateFederationState, wp_rules]
  exact ⟨fun _ => { sound with }, fun _ => onFederationStateUpdateImpl_sound { sound with }⟩

theorem Sound.placed (sound : Sound settings owed state)
    (placed : index < state.subsessions.length) :
    ∃ former last, state.subsessions = former ++ [last] ∧
      (index + 1 = state.subsessionGeneration → index = former.length) ∧
      (index + 1 ≠ state.subsessionGeneration → index < former.length) := by
  rcases eq_nil_or_concat state.subsessions with none | ⟨former, last, opened⟩
  · simp [none] at placed
  · rw [concat_eq_append] at opened
    have generation := sound.generation
    simp only [opened, length_append, length_singleton] at generation placed
    exact ⟨former, last, opened, by omega, by omega⟩

theorem Sound.changeFormer {former : List Subsession} {last : Subsession}
    {change : Subsession → Subsession} (seen : Link Content → Link Content)
    (sound : Sound settings 0 state) (opened : state.subsessions = former ++ [last])
    (isFormer : index < former.length)
    (commutes : ∀ subsession, (change subsession).link = seen subsession.link)
    (faithful : Outbox.Faithful 0 { state.outbox with
      links := (former.map Subsession.link).modify index seen ++ [last.link] }) :
    Sound settings 0 { state with subsessions := state.subsessions.modify index change } := by
  have changed : state.subsessions.modify index change = former.modify index change ++ [last] := by
    rw [opened, modify_append_former last change isFormer]
  constructor
  · simpa [State.outbox, changed, map_modify Subsession.link commutes] using faithful
  · exact sound.stored
  · exact sound.space
  · simp [sound.generation]
  · intro others newest same
    rw [changed] at same
    obtain ⟨rfl, rfl⟩ := append_singleton_inj.mp same
    simpa using sound.current former _ opened
  · exact fun none => by simp [opened] at none

theorem readyToAccept_sound (sound : Sound settings 0 state)
    (allowed : Permitted state (.readyToAccept index)) :
    (react settings (.readyToAccept index)).wp (.keeping (Sound settings 0) (fun _ => False))
      state := by
  obtain ⟨subsession, found, unused⟩ := allowed
  obtain ⟨former, last, opened, isLast, isFormer⟩ :=
    sound.placed (List.getElem?_eq_some_iff.mp (Option.mem_def.mp found)).1
  obtain ⟨current, token⟩ := sound.current former last opened
  simp only [react, readyToAcceptHandler, wp_rules, decide_eq_true_eq,
    decide_eq_false_iff_not]
  refine ⟨fun isCurrent => ?_, fun notCurrent => ?_⟩
  · obtain rfl := isLast isCurrent
    obtain rfl : last = subsession := by simpa [opened] using found
    have none : state.pendingToken = false := token.symm.trans unused
    refine ⟨fun _ => maybeWriteImpl_sound ?_, fun pending => by simp [none] at pending⟩
    constructor
    · simpa [State.outbox, opened, modify_append_last, Subsession.link] using sound.faithful
    · exact sound.stored
    · exact sound.space
    · simp [sound.generation]
    · intro others newest same
      simp only [opened, modify_append_last] at same
      obtain ⟨rfl, rfl⟩ := append_singleton_inj.mp same
      exact ⟨current, rfl⟩
    · exact fun none => by simp [opened] at none
  · exact sound.changeFormer id opened (isFormer notCurrent) (fun _ => rfl)
      (by simpa [State.outbox, opened] using sound.faithful)

theorem popAcknowledged_sound (sound : Sound settings (owed + 1) state)
    (queued : 0 < state.toGetAck.length) :
    popAcknowledged.wp ⟨fun _ after => Sound settings owed after ∧
        after.toGetAck.length + 1 = state.toGetAck.length, nofun, fun _ => False⟩ state := by
  cases queue : state.toGetAck with
  | nil => simp [queue] at queued
  | cons front rest =>
    have head : state.outbox.passed = front.content :: rest.map WrappedWriteMessage.content := by
      simp [State.outbox, queue]
    simp only [popAcknowledged, queue, wp_rules]
    refine ⟨?_, rfl⟩
    constructor
    · simpa [State.outbox] using sound.faithful.pop head
    · exact sound.stored.sublist (by simp [queue])
    · change i64 (state.bufferFreeSpace + front.data.length) =
        i64 (settings.maxMemoryUsage - totalSize (rest ++ state.toPassDown))
      rw [sound.space, i64_i64_add, queue, ← singleton_append, append_assoc,
        totalSize_append [front], totalSize_singleton]
      congr 1
      omega
    · exact sound.generation
    · exact sound.current
    · exact sound.unopened

theorem popAll_sound (sound : Sound settings count state) (queued : count ≤ state.toGetAck.length) :
    (Code.forEach (.range count) fun _ => popAcknowledged).wp
      (.keeping (Sound settings 0) (fun _ => False)) state := by
  apply wp_forEach fun remaining after =>
    Sound settings remaining.length after ∧ remaining.length ≤ after.toGetAck.length
  · simpa using ⟨sound, queued⟩
  · intro _ rest before ⟨sound, queued⟩
    rw [length_cons] at sound queued
    refine wp_mono (popAcknowledged_sound sound (by omega)) ?_ nofun
    intro _ after popped
    exact ⟨popped.1, by omega⟩
  · exact fun after kept => kept.1

theorem Sound.acknowledged_le
    (sound : Sound settings 0 state) (opened : state.subsessions = former ++ [last])
    (received : last.acknowledged + count ≤ last.received.length) :
    count ≤ state.toGetAck.length := by
  have linked : state.outbox.links = former.map Subsession.link ++ [last.link] := by
    simp [State.outbox, opened]
  have long := (sound.faithful.current _ _ linked).2
  simp only [Subsession.link, State.outbox, length_map] at long
  omega

theorem acks_sound (sound : Sound settings 0 state)
    (allowed : Permitted state (.acks index count)) :
    (react settings (.acks index count)).wp (.keeping (Sound settings 0) (fun _ => False))
      state := by
  obtain ⟨subsession, found, received⟩ := allowed
  obtain ⟨former, last, opened, isLast, isFormer⟩ :=
    sound.placed (List.getElem?_eq_some_iff.mp (Option.mem_def.mp found)).1
  have linked : state.outbox.links = former.map Subsession.link ++ [last.link] := by
    simp [State.outbox, opened]
  simp only [react, acksHandler, wp_rules, decide_eq_true_eq,
    decide_eq_false_iff_not]
  refine ⟨fun isCurrent => ?_, fun notCurrent => ?_⟩
  · obtain rfl := isLast isCurrent
    obtain rfl : last = subsession := by simpa [opened] using found
    have queued := sound.acknowledged_le opened received
    refine ⟨fun _ => ?_, fun exceeds => absurd queued exceeds⟩
    refine wp_imp (popAll_sound ?_ (by exact queued)) (fun _ after kept => { kept with })
    constructor
    · simpa [State.outbox, opened, modify_append_last, Subsession.link] using
        sound.faithful.acknowledge linked count
    · exact sound.stored
    · exact sound.space
    · simp [sound.generation]
    · intro others newest same
      simp only [opened, modify_append_last] at same
      obtain ⟨rfl, rfl⟩ := append_singleton_inj.mp same
      exact sound.current former last opened
    · exact fun none => by simp [opened] at none
  · exact sound.changeFormer (fun link => { link with acknowledged := link.acknowledged + count })
      opened (isFormer notCurrent) (fun _ => rfl)
      (sound.faithful.acknowledgeFormer linked index count)

theorem sessionClosedHandler_sound (index : Nat) (isSuccess : Bool) :
    (sessionClosedHandler index isSuccess).Upholds (Sound settings owed) (fun _ => False) :=
  .bind .get fun _ => .when fun _ => closeImpl_sound

theorem startSession_sound : startSession.Upholds (Sound settings owed) (fun _ => False) :=
  .bind .get fun _ => .ite _
    (fun _ => .bind (.update fun _ sound => { sound with }) fun _ => goOn_sound _)
    (fun _ => .pure ())

theorem getEvent_sound : getEvent.Upholds (Sound settings owed) (fun _ => False) := by
  intro state sound
  rw [getEvent, wp_update]
  split
  · exact sound
  · exact { sound with }
  · exact { sound with }

theorem pushEvent_sound (event : ClientEvent) :
    (pushEvent event).Upholds (Sound settings owed) (fun _ => False) :=
  .bind .get fun _ => .when fun _ => .update fun _ sound => { sound with }

theorem perform_sound (work : Work) :
    (perform work).Upholds (Sound settings owed) (fun _ => False) := by
  cases work with
  | issueTokenIfAllowed =>
    exact .bind .get fun _ => .ite _
      (fun _ => .bind (.update fun _ sound => { sound with }) fun _ => .pure _)
      (fun _ => .pure _)
  | pushToken => exact .bind (pushEvent_sound _) fun _ => .pure _
  | pushAcks count => exact .bind (pushEvent_sound _) fun _ => .pure _
  | closeQueue => exact .bind (.update fun _ sound => { sound with }) fun _ => .pure _
  | subscribe => exact .bind (.update fun _ sound => { sound with }) fun _ => .pure _
  | finishClose => exact .bind closeImpl_sound fun _ => .pure _

theorem resume_sound (thread : Nat) :
    (resume thread).Upholds (Sound settings owed) (fun _ => False) := by
  apply Code.Upholds.bind .get
  intro state
  split
  · exact .bind (.update fun _ sound => { sound with }) fun _ => .bind (perform_sound _) fun _ =>
      .update fun _ sound => { sound with }
  · exact .pure ()

theorem react_sound (sound : Sound settings 0 state)
    (allowed : Permitted state event) :
    (react settings event).wp (.keeping (Sound settings 0) Assertion.ofFederation) state := by
  have unasserted : ∀ {code : Writer Unit},
      code.wp (.keeping (Sound settings 0) (fun _ => False)) state →
      code.wp (.keeping (Sound settings 0) Assertion.ofFederation) state := fun met =>
    wp_imp met (fun _ _ => id)
  cases event with
  | start => exact unasserted (startSession_sound state sound)
  | write data message now => exact unasserted (writeInternal_sound { sound with })
  | flush => exact unasserted (flush_sound state sound)
  | close => exact unasserted (close_sound state sound)
  | getEvent => exact unasserted (getEvent_sound state sound)
  | updateFederationState federationState hasContext => exact updateFederationState_sound sound
  | readyToAccept index => exact unasserted (readyToAccept_sound sound allowed)
  | acks index count => exact unasserted (acks_sound sound allowed)
  | sessionClosed index isSuccess =>
    exact unasserted (sessionClosedHandler_sound index isSuccess state sound)
  | resume thread => exact unasserted (resume_sound thread state sound)

end YdbSdk.Topic.Federated.WriteSession
