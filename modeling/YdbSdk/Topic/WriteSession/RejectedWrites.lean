import YdbSdk.Topic.WriteSession.Conservation

namespace YdbSdk.Topic.WriteSession

open YdbSdk.Control YdbSdk.Data Code List

/-! # Writes that are rejected for their number

`WriteInternal` flushes the batch of another context, subscribes to the transaction and
moves the counter and the mode before it looks at the number of the message, and an
exception rolls nothing back.
-/

variable {env : Environment} {state after : State} {now : Instant} {message : WriteMessage}

/-- The number is given in automatic mode or without deduplication, or it is missing in
manual mode. -/
def State.rejects (env : Environment) (state : State) : Option Nat → Bool
  | some _ => !env.settings.deduplicationEnabled || state.autoSeqNoMode == some true
  | none => state.autoSeqNoMode == some false

def State.contextChanges (state : State) (message : WriteMessage) : Bool :=
  state.currentBatch.messages.head?.any (fun front =>
    !front.writeContext.same message.writeContext)

def State.subscribed (state : State) (tx : Option Transaction) : Bool :=
  tx.all (fun tx => (state.txs.find tx.id).any (fun index =>
    state.txInfos[index]?.any TransactionInfo.subscribed))

/-- All that a session goes by: in manual mode its counter is never read. -/
def State.visible (state : State) : State :=
  { state with nextId := if state.autoSeqNoMode = some false then 0 else state.nextId }

def State.numberTaken (state : State) (seqNo : Option Nat) : State :=
  { state with
    nextId := state.nextId + 1
    autoSeqNoMode := state.autoSeqNoMode.or (some seqNo.isNone) }

theorem getNextIdImpl_rejects {seqNo : Option Nat} (rejected : state.rejects env seqNo = true) :
    (getNextIdImpl env seqNo).wp ⟨fun _ _ => False,
      fun _ after => after = state.numberTaken seqNo, fun _ => False⟩ state := by
  simp only [getNextIdImpl]
  cases seqNo with
  | some given =>
    simp only [wp_rules]
    refine ⟨fun _ => rfl, fun deduplicates => ⟨fun _ => rfl, fun manual => manual ?_⟩⟩
    have automatic : state.autoSeqNoMode = some true := by simp_all [State.rejects]
    rw [automatic]
    rfl
  | none =>
    have manual : state.autoSeqNoMode = some false := by simpa [State.rejects] using rejected
    simp only [manual, Option.some_or, wp_rules]
    exact ⟨fun _ => by rw [State.numberTaken, manual]; rfl, by simp⟩

def State.queued (state : State) : Nat :=
  state.sentOriginalMessages.length + state.originalMessagesToSend.length

/-- However the subscription ends, the object of the transaction is marked; nothing
happens if it was marked already. -/
theorem trySubscribeOnTransactionCommit_subscribes (tx : Option Transaction)
    (sound : state.TxSound) :
    (trySubscribeOnTransactionCommit tx).wp
      ⟨fun _ after => (after.autoSeqNoMode = state.autoSeqNoMode ∧ after.queued = state.queued) ∧
          after.subscribed tx = true ∧ (state.subscribed tx = true → after = state),
        fun _ after => (after.autoSeqNoMode = state.autoSeqNoMode ∧ after.queued = state.queued) ∧
          after.subscribed tx = true ∧ state.subscribed tx ≠ true,
        fun _ => False⟩ state := by
  cases tx with
  | none => exact ⟨⟨rfl, rfl⟩, rfl, fun _ => rfl⟩
  | some tx =>
    simp only [trySubscribeOnTransactionCommit, wp_bind]
    refine wp_imp (getOrCreateTxInfo_spec tx.id state) ?_
    rintro index _ ⟨opened, opens, rfl⟩
    obtain ⟨info, found, _⟩ := (opens.sound sound).find opens.find
    have before : state.subscribed (some tx) = true →
        state.register opened = state ∧ info.subscribed = true := by
      cases opens with
      | found named =>
        intro marked
        have named : state.txs.find tx.id = some index := named
        have found : state.txInfos[index]? = some info := found
        exact ⟨rfl, by simpa [State.subscribed, named, found] using marked⟩
      | created unnamed =>
        have unnamed : state.txs.find tx.id = none := unnamed
        simp [State.subscribed, unnamed]
    simp only [updateTxInfo, wp_rules, State.register, State.subscribed, Option.all_some,
      opens.find, Option.any_some, List.getElem?_modify_eq, found]
    refine ⟨fun marked => ⟨⟨trivial, rfl⟩, marked, fun earlier => (before earlier).1⟩,
      fun unmarked => ?_⟩
    have unsubscribed : ¬ state.subscribed (some tx) = true :=
      fun earlier => unmarked (before earlier).2
    exact ⟨fun _ => ⟨⟨trivial, rfl⟩, rfl, fun earlier => absurd earlier unsubscribed⟩,
      fun _ => ⟨⟨trivial, rfl⟩, rfl, unsubscribed⟩⟩

/-- Nothing but messages has moved, and `added` of them are new in the queues. -/
structure Queues (added : Nat) (before after : State) : Prop where
  sound : after.TxSound
  mode : after.autoSeqNoMode = before.autoSeqNoMode
  queued : after.queued = before.queued + added

/-- Sending and compressing move messages between the queues only. -/
theorem At.queues {event : Event} {start : State} {p : Point} (reached : At env event start p)
    (sends : event = .scheduledSend ∨ ∃ task, event = .compressed task) :
    (p.flushing = false ∧ p.opening = false) ∧ p.state.autoSeqNoMode = start.autoSeqNoMode ∧
      p.state.queued = start.queued := by
  have quiet : event.mayFlush = false ∧ event.answers = false ∧ event ≠ .getInitSeqNo ∧
      ∀ now message, event ≠ .write now message := by
    rcases sends with rfl | ⟨task, rfl⟩ <;> exact ⟨rfl, rfl, by simp, by simp⟩
  induction reached with
  | start => rcases sends with rfl | ⟨task, rfl⟩ <;> exact ⟨⟨rfl, rfl⟩, rfl, rfl⟩
  | @move p _ _ moved ih =>
    obtain ⟨⟨unflushed, decided⟩, mode, queued⟩ := ih
    cases moved with
    | sends sent =>
      refine ⟨⟨unflushed, decided⟩, mode, ?_⟩
      have split := congrArg List.length sent.split
      simp only [State.queued, length_append] at split queued ⊢
      omega
    | expires =>
      refine ⟨⟨unflushed, decided⟩, mode, ?_⟩
      simpa only [State.queued, State.aborted, length_map] using queued
    | aborts =>
      refine ⟨⟨unflushed, rfl⟩, mode, ?_⟩
      simpa only [State.queued, State.aborted, length_map] using queued
    | builds flushes => exact absurd (quiet.1.symm.trans flushes) (by simp)
    | clears _ flushing => exact absurd (unflushed.symm.trans flushing) (by simp)
    | attaches =>
      refine ⟨⟨unflushed, decided⟩, mode, ?_⟩
      have same (messages : List OriginalMessage) :
          (flush.attach p.state.nextFlushPromise messages).length = messages.length := by
        simpa using congrArg List.length (attach_records p.state.nextFlushPromise messages)
      simp only [State.queued, same, apply_ite List.length, ite_self] at queued ⊢
      exact queued
    | subscribes written | accepts written => exact absurd written (quiet.2.2.2 _ _)
    | quits => exact ⟨⟨unflushed, rfl⟩, mode, queued⟩
    | numbers opening => exact absurd (decided.symm.trans opening) (by simp)
    | fixes _ asked => exact absurd asked quiet.2.2.1
    | acknowledges _ _ _ _ _ _ answers => exact absurd (quiet.2.1.symm.trans answers) (by simp)
    | restarts =>
      refine ⟨⟨unflushed, decided⟩, mode, ?_⟩
      simp only [State.queued, length_append, length_nil] at queued ⊢
      omega
    | _ => exact ⟨⟨unflushed, decided⟩, mode, queued⟩

theorem Queues.trans (queues : Queues added state middle)
    (sends : Queues 0 middle after) : Queues added state after :=
  ⟨sends.sound, sends.mode.trans queues.mode, sends.queued.trans queues.queued⟩

theorem sending_queues {code : Session α}
    (walked : code.wp (walk env event start ends) state)
    (same : ∀ value after, (ends value after).state = after)
    (sends : event = .scheduledSend ∨ ∃ task, event = .compressed task) :
    code.wp (.keeping (Queues 0 start)) state := by
  refine wp_mono_stops walked (fun value after reached => ?_) ?_ (fun _ _ => trivial)
  · obtain ⟨_, mode, queued⟩ := reached.queues sends
    have sound := reached.sound
    rw [same] at sound mode queued
    exact ⟨sound, mode, queued⟩
  · rintro _ after ⟨p, reached, throws⟩
    obtain ⟨_, mode, queued⟩ := reached.queues sends
    cases throws with
    | called => exact ⟨reached.sound.modify _ (fun _ => rfl) (fun _ => id), mode, queued⟩
    | _ => exact ⟨reached.sound, mode, queued⟩

theorem sendImpl_queues (env : Environment) (sound : state.TxSound) :
    (sendImpl env).wp (.keeping (Queues 0 state)) state := by
  have sends : Sends env .scheduledSend state { state } := ⟨rfl, nofun, nofun, .inl rfl, nofun⟩
  exact sending_queues (sendImpl_walk (.start sound) sends rfl rfl nofun) (fun _ _ => rfl) (.inl rfl)

theorem compressionTask_queues (env : Environment) (block : Block) (sound : state.TxSound) :
    (compressionTask env block).wp (.keeping (Queues 0 state)) state := by
  let start : State := { state with compressing := block :: state.compressing }
  have taken : At env (.compressed 0) start { state, block := some block } :=
    .move (.start sound) (.takes rfl rfl ⟨rfl, rfl⟩ rfl)
  have sends : Sends env (.compressed 0) start { state, block := some block } :=
    ⟨rfl, nofun, nofun, .inl rfl, nofun⟩
  have queues := sending_queues
    (compressionTask_walk taken sends rfl rfl (.inr nofun) nofun) (fun _ _ => rfl) (.inr ⟨0, rfl⟩)
  have kept (middle : State) (moved : Queues 0 start middle) : Queues 0 state middle := { moved with }
  exact wp_mono queues (fun _ => kept) (fun _ => kept)

theorem packBlock_queues (env : Environment) (skipCompression : Bool) (block : Block)
    (sound : state.TxSound) :
    (packBlock env skipCompression block).wp (.keeping (Queues 0 state)) state := by
  have same : Queues 0 state state := ⟨sound, rfl, rfl⟩
  simp only [packBlock, compressImpl, wp_rules]
  refine ⟨fun _ => { same with }, fun _ => ⟨fun _ => same, fun _ => ?_⟩⟩
  refine wp_mono_stops (getSeqNoImpl_spec _ state) ?_ (fun _ _ => False.elim) (fun _ _ => trivial)
  rintro _ _ ⟨rfl, _⟩
  exact ⟨fun _ => { same with }, fun _ => compressionTask_queues env block sound⟩

theorem writeBatchImpl_queues (env : Environment) (sound : state.TxSound) :
    (writeBatchImpl env).wp (.keeping (Queues state.currentBatch.messages.length state)) state := by
  refine writeBatchImpl_wp env (fun _ _ _ => trivial) ?_
  rintro block _ ⟨rebased, compressed, uncompressed, found, _, rfl, rfl⟩ _
  have prepares : Queues state.currentBatch.messages.length state { state with
      bytesInflightCompressed := compressed, bytesInflightUncompressed := uncompressed
      originalMessagesToSend := state.originalMessagesToSend ++ rebased.map Message.toOriginal
      currentBatch := state.currentBatch.emptied rebased } := by
    refine ⟨sound, rfl, ?_⟩
    simp only [State.queued, length_append, length_map, MessageBatch.rebased_length found]
    omega
  refine wp_mono (packBlock_queues env _ _ (by exact sound)) (fun _ packed moved => ?_)
    (fun _ _ => prepares.trans)
  have packs : Queues _ state { packed with currentBatch := {} } := { prepares.trans moved with }
  simp only [wp_when]
  exact ⟨fun _ => wp_mono (sendImpl_queues env packs.sound) (fun _ _ => packs.trans)
    (fun _ _ => packs.trans), fun _ => packs⟩

/-- From the subscription on, a rejected write changes transactions, the counter and the
mode only. -/
theorem number_rejects {seqNo : Option Nat} {tx : Option Transaction} {next : Nat → State → Prop}
    {thrown : State → Prop} (sound : state.TxSound) (rejected : state.rejects env seqNo = true)
    (met : (trySubscribeOnTransactionCommit tx).wp ⟨fun _ => (getNextIdImpl env seqNo).wp
      ⟨next, fun _ => thrown, fun _ => False⟩, fun _ => thrown, fun _ => False⟩ state) :
    ∃ after, thrown after ∧ after.queued = state.queued ∧ after.subscribed tx = true ∧
      (state.subscribed tx = true → after = state.numberTaken seqNo) := by
  refine of_wp (wp_and met (trySubscribeOnTransactionCommit_subscribes tx sound)) ?_ ?_
    (fun _ both => both.1.elim)
  · rintro _ middle ⟨taken, ⟨mode, queued⟩, subscribed, unchanged⟩
    have stillRejected : middle.rejects env seqNo = true := by
      rw [← rejected]
      unfold State.rejects
      rw [mode]
    refine of_wp (wp_and taken (getNextIdImpl_rejects stillRejected))
      (fun _ _ both => both.2.elim) ?_ (fun _ both => both.1.elim)
    rintro _ _ ⟨holds, rfl⟩
    exact ⟨_, holds, queued, subscribed, fun earlier => by rw [unchanged earlier]⟩
  · rintro _ after ⟨holds, ⟨_, queued⟩, subscribed, unsubscribed⟩
    exact ⟨after, holds, queued, subscribed, fun earlier => absurd earlier unsubscribed⟩

/-- A rejected write leaves the session as it was exactly if the session was in manual
mode, had no batch of another context and was subscribed to the transaction. -/
theorem rejected_write_unchanged_iff (env : Environment) (now : Instant) (message : WriteMessage)
    (state : State) (sound : state.TxSound)
    (valid : deferredPublicationMessageInvalid message = false)
    (rejected : state.rejects env message.seqNo = true) :
    (writeInternal env now message).wp ⟨fun _ _ => False,
        fun _ after => after.visible = state.visible, fun _ => False⟩ state ↔
      state.autoSeqNoMode = some false ∧ state.contextChanges message = false ∧
        state.subscribed message.tx = true := by
  have sameQueued {after : State} (same : after.visible = state.visible) :
      after.queued = state.queued := by
    have queued := congrArg State.queued same
    exact queued
  simp only [writeInternal, valid, Bool.false_eq_true, if_false, wp_bind, wp_when]
  constructor
  · intro unchanged
    cases changes : state.contextChanges message with
    | true =>
      -- The flush shows: the messages of the batch are queued.
      have empty : state.currentBatch.messages.length = 0 := by
        refine of_wp (wp_and (unchanged.1 changes) (writeBatchImpl_queues env sound)) ?_
          ?_ (fun _ both => both.1.elim)
        · rintro _ flushed ⟨met, sound, mode, queued⟩
          have stillRejected : flushed.rejects env message.seqNo = true := by
            rw [← rejected]
            unfold State.rejects
            rw [mode]
          obtain ⟨after, same, kept, _⟩ := number_rejects sound stillRejected met
          have := sameQueued same
          omega
        · rintro _ after ⟨same, _, _, queued⟩
          have := sameQueued same
          omega
      rw [State.contextChanges, length_eq_zero_iff.mp empty] at changes
      contradiction
    | false =>
      obtain ⟨after, same, _, subscribed, taken⟩ :=
        number_rejects sound rejected (unchanged.2 changes)
      have already : state.subscribed message.tx = true := by
        have kept := congrArg (fun state : State => state.subscribed message.tx) same
        exact kept.symm.trans subscribed
      refine ⟨?_, rfl, already⟩
      by_contra automatic
      rw [taken already] at same
      have mode := congrArg State.autoSeqNoMode same
      have counter := congrArg State.nextId same
      simp only [State.visible] at mode counter
      rw [mode, if_neg automatic, if_neg automatic] at counter
      exact Nat.succ_ne_self _ counter
  · rintro ⟨manual, kept, subscribed⟩
    refine ⟨fun changes => ?_, fun _ => ?_⟩
    · rw [State.contextChanges] at kept
      rw [kept] at changes
      contradiction
    · refine wp_mono (trySubscribeOnTransactionCommit_subscribes message.tx sound) ?_
        (fun _ _ failed => absurd subscribed failed.2.2)
      rintro _ after ⟨_, _, same⟩
      rw [same subscribed]
      refine wp_mono (getNextIdImpl_rejects rejected) (fun _ _ => False.elim) ?_
      simp [State.visible, State.numberTaken, manual]

theorem rejected_write_unchanged_in_manual_mode :
    (writeInternal {} 1 { data := [1] }).wp ⟨fun _ _ => False,
      fun _ after => after.visible = ({ autoSeqNoMode := some false } : State).visible,
      fun _ => False⟩ { autoSeqNoMode := some false } :=
  (rejected_write_unchanged_iff _ _ _ _ ⟨by simp, by simp⟩ rfl rfl).mpr ⟨rfl, rfl, rfl⟩

/-- Without deduplication a number is rejected, but it leaves the session in manual mode,
and then writes without a number are rejected as well. -/
theorem rejected_write_blocks_later_writes :
    ∃ env, ∃ state, Reaches env (fun _ _ => True) state ∧
      state.rejects env (some 7) = true ∧
      endsWith (react env) state [.write 2 { data := [2] }]
        (fun after => after.accepted.length == 1) = true ∧
      endsWith (react env) state
        [.write 1 { data := [1], seqNo := some 7 }, .write 2 { data := [2] }]
        (fun after => after.accepted.length == 0) = true :=
  ⟨{ settings := { deduplicationEnabled := false, directWriteToPartition := false } },
    exists_reachable [.connect false true, .serverMessage 1 (.initResponse { lastSeqNo := 0 })]
      (by decide +kernel)⟩

end YdbSdk.Topic.WriteSession
