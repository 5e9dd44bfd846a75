import YdbSdk.Topic.WriteSession.Registration

namespace YdbSdk.Topic.WriteSession

open YdbSdk.Control YdbSdk.Data Code List

/-! # Sending and flushing, move by move

The code that turns the batch into a block, compresses it and fills requests.
-/

variable {env : Environment} {event : Event} {start state : State} {p : Point} {block : Block}

/-- An assertion that neither relates the queues nor covers the memory usage. -/
theorem Failed.apart (reached : At env event start p)
    (apart : assertion.relatesQueues = false) (covered : assertion ≠ .memoryUsageCovers) :
    ∃ p, At env event start p ∧ Fails env p assertion :=
  ⟨p, reached, .apart apart covered⟩

theorem getSeqNoImpl_spec (id : Nat) (state : State) :
    (getSeqNoImpl id).wp
      ⟨fun seqNo after => after = state ∧ state.seqNo? id = some seqNo, fun _ _ => False,
        fun assertion => assertion = .autoSeqNoModeKnown ∨ assertion = .initSeqNoKnown⟩ state := by
  simp only [getSeqNoImpl, wp_rules]
  cases mode : state.autoSeqNoMode with
  | none => exact .inl rfl
  | some auto =>
    cases init : state.initSeqNo with
    | none => exact .inr rfl
    | some initSeqNo => exact ⟨rfl, by simp [State.seqNo?, mode, init]⟩

theorem takeOriginals_spec (count : Nat) (state : State) :
    (takeOriginals count).wp ⟨fun taken after => taken.length = count ∧ ∃ kept,
          state.originalMessagesToSend = taken ++ kept ∧
          after = { state with originalMessagesToSend := kept }, fun _ _ => False,
        fun assertion => assertion = .sentBlockOriginals ∧
          state.originalMessagesToSend.length < count⟩ state := by
  induction count generalizing state with
  | zero => exact ⟨rfl, _, rfl, rfl⟩
  | succ count ih =>
    simp only [takeOriginals, wp_rules]
    cases waiting : state.originalMessagesToSend with
    | nil => exact ⟨rfl, by simp⟩
    | cons front rest =>
      simp only [wp_rules]
      refine wp_mono_stops (ih _) ?_ (fun _ _ => id) ?_
      · rintro taken _ ⟨length, kept, split, rfl⟩
        exact ⟨by simp [length], kept, congrArg (front :: ·) split, rfl⟩
      · rintro assertion ⟨rfl, short⟩
        exact ⟨rfl, by simpa using short⟩

def Assertion.ofSentBlock (block : Block) (state : State) (assertion : Assertion) : Prop :=
  (assertion = .autoSeqNoModeKnown ∨ assertion = .initSeqNoKnown) ∨
    assertion = .sentBlockOriginals ∧ state.originalMessagesToSend.length < block.messageCount

theorem sendBatchBlock_spec (block : Block) (request : WriteRequest) (state : State)
    (several : 1 < block.messageCount) :
    (sendBatchBlock block request).wp ⟨fun extended after => ∃ taken kept,
          BlockTaken state request block taken kept extended ∧ after = { state with
            originalMessagesToSend := kept
            sentOriginalMessages := state.sentOriginalMessages ++ taken },
        fun _ after => after = state ∧ state.batchingSupported = false,
        Assertion.ofSentBlock block state⟩ state := by
  simp only [sendBatchBlock, wp_rules]
  refine ⟨fun refused => ⟨trivial, by simpa using refused⟩, fun supported => ?_⟩
  have supported : state.batchingSupported = true := by simpa using supported
  refine wp_mono_stops (takeOriginals_spec block.messageCount state) ?_
    (fun _ _ => False.elim) (fun _ => .inr)
  rintro taken _ ⟨length, kept, split, rfl⟩
  cases taken with
  | nil =>
    rw [← length] at several
    contradiction
  | cons first others =>
    simp only [wp_bind]
    refine wp_mono_stops (getSeqNoImpl_spec _ _) ?_ (fun _ _ => False.elim) (fun _ => .inl)
    rintro seqNo _ ⟨rfl, numbered⟩
    simp only [wp_rules]
    refine ⟨first :: others, kept, ⟨.inl supported, length, split, first.toMessageRecord,
      ((first :: others).getLast (cons_ne_nil _ _)).toMessageRecord, _, rfl, rfl, rfl, ?_,
      numbered⟩, rfl⟩
    rw [List.getLast?_map]
    rfl

theorem sendStandardBlock_spec (block : Block) (request : WriteRequest) (state : State) :
    (sendStandardBlock block request).wp ⟨fun extended after => ∃ taken kept,
          BlockTaken state request block taken kept extended ∧ after = { state with
            originalMessagesToSend := kept
            sentOriginalMessages := state.sentOriginalMessages ++ taken },
        fun _ _ => False,
        fun assertion => (assertion = .standardBlockCount ∧ block.messageCount ≠ 1) ∨
          assertion.ofSentBlock block state⟩ state := by
  simp only [sendStandardBlock, wp_rules, beq_iff_eq, beq_eq_false_iff_ne]
  refine ⟨fun one => ?_, fun other => .inl ⟨trivial, other⟩⟩
  refine wp_mono_stops (takeOriginals_spec 1 state) ?_ (fun _ _ => .elim)
    (fun _ short => .inr (.inr (one ▸ short)))
  rintro taken _ ⟨length, kept, split, rfl⟩
  cases taken with
  | nil => contradiction
  | cons message others =>
    obtain rfl : others = [] := by simpa using length
    simp only [wp_bind]
    refine wp_mono_stops (getSeqNoImpl_spec _ _) ?_ (fun _ _ => .elim)
      (fun _ unknown => .inr (.inl unknown))
    rintro seqNo _ ⟨rfl, numbered⟩
    simp only [wp_rules]
    exact ⟨[message], kept, ⟨.inr (Nat.le_of_eq one), one.symm ▸ rfl, split, message.toMessageRecord,
      message.toMessageRecord, _, rfl, rfl, rfl, rfl, numbered⟩, rfl⟩

theorem sendBlock_spec (block : Block) (request : WriteRequest) (state : State) :
    (sendBlock block request).wp ⟨fun extended after => ∃ taken kept,
          BlockTaken state request block taken kept extended ∧ after = { state with
            originalMessagesToSend := kept
            sentOriginalMessages := state.sentOriginalMessages ++ taken },
        fun _ after => after = state ∧ state.batchingSupported = false ∧ 1 < block.messageCount,
        fun assertion => (assertion = .standardBlockCount ∧ block.messageCount = 0) ∨
          assertion.ofSentBlock block state⟩ state := by
  unfold sendBlock
  rw [wp_ite]
  constructor
  · intro several
    exact wp_mono_stops (sendBatchBlock_spec block request state several) (fun _ _ => id)
      (fun _ _ refused => ⟨refused.1, refused.2, several⟩) (fun _ => .inr)
  · intro single
    exact wp_mono_stops (sendStandardBlock_spec block request state) (fun _ _ => id)
      (fun _ _ => False.elim) (fun _ => .imp_left fun failed => ⟨failed.1, by omega⟩)

theorem isReadyToSendNextImpl_spec (env : Environment) (state : State) :
    (isReadyToSendNextImpl env).wp ⟨fun ready after => after = state ∧
        (ready = true → ∃ block front rest, state.ReadyToSend env block front rest), fun _ _ => False,
        state.Unready env⟩ state := by
  simp only [isReadyToSendNextImpl, wp_rules, Bool.false_eq_true,
    false_implies, and_true]
  refine ⟨fun _ => trivial, fun established => ⟨fun _ => trivial, fun running => ?_⟩⟩
  have established : state.sessionEstablished = true := by simpa using established
  have running : state.aborting = false := by simpa using running
  cases topmost : state.top env with
  | none => exact ⟨rfl, fun impossible => by contradiction⟩
  | some top =>
    cases waiting : state.originalMessagesToSend with
    | nil => exact ⟨top, topmost, .inl ⟨rfl, waiting⟩⟩
    | cons front rest =>
      simp only [wp_rules, decide_eq_false_iff_not, beq_iff_eq,
        true_and]
      exact ⟨fun _ ready => ⟨top, front, rest, established, running, topmost, waiting, ready⟩,
        fun lost => ⟨top, topmost, .inr ⟨rfl, front, rest, waiting, by omega⟩⟩⟩

theorem fillRequest_walk (turns : Nat) (limiter : RequestSizeLimiter) (reached : At env event start p)
    (sends : Sends env event start p) (packed : p.block = none) (busy : p.state.Busy) :
    (fillRequest env turns p.request limiter).wp
      (walkAnd env event start (fun _ after => after.Busy)
        fun request after => { p with state := after, request }) p.state := by
  induction turns generalizing p limiter with
  | zero => exact ⟨busy, reached⟩
  | succ turns ih =>
    simp only [fillRequest, wp_bind]
    refine wp_mono_stops (isReadyToSendNextImpl_spec env p.state) ?_ (fun _ _ => False.elim)
      (fun _ unready => ⟨p, reached, .unready unready⟩)
    rintro ready _ ⟨rfl, whenReady⟩
    simp only [wp_rules]
    refine ⟨fun isReady => ?_, fun _ => ⟨busy, reached⟩⟩
    obtain ⟨block, front, rest, ready⟩ := whenReady isReady
    simp only [ready.topmost, ready.waiting, wp_rules]
    refine ⟨fun _ => ⟨busy, reached⟩, fun sameCodec => ⟨fun _ => ⟨busy, reached⟩, fun sameContext => ?_⟩⟩
    have codec : p.request.messages = [] ∨ p.request.codec = block.codecId := by
      simp only [Bool.and_eq_true, Bool.not_eq_true', isEmpty_eq_false_iff, bne_iff_ne,
        not_and_or, not_not] at sameCodec
      exact sameCodec
    cases estimate : estimateTopicWriteRequestBlockSize block
        ((front :: rest).map OriginalMessage.toMessageRecord) limiter.empty with
    | none =>
      refine ⟨p, reached, .short ready (Nat.lt_of_not_le fun enough => ?_) (.inl rfl)⟩
      rw [ready.waiting] at enough
      have estimated : (estimateTopicWriteRequestBlockSize block
          ((front :: rest).map OriginalMessage.toMessageRecord) limiter.empty).isSome = true :=
        estimateTopicWriteRequestBlockSize_isSome (by simp) (by simpa using enough) _
      rw [estimate] at estimated
      contradiction
    | some blockSize =>
      simp only [wp_rules]
      refine ⟨fun _ => ⟨busy, reached⟩, fun _ => ?_⟩
      refine wp_mono_stops (sendBlock_spec block _ p.state) ?_ ?_ ?_
      · rintro extended _ ⟨taken, kept, takes, rfl⟩
        exact ih _ (.move reached (.sends { takes with
          ready := ⟨front, rest, ready, by simpa using sameContext⟩, codec })) { sends with } packed
          (.inr (append_ne_nil_of_right_ne_nil _ (cons_ne_nil _ _)))
      · rintro _ _ ⟨rfl, unsupported, several⟩
        exact ⟨p, reached, .refused sends packed ready unsupported several⟩
      · rintro assertion (⟨rfl, none⟩ | (rfl | rfl) | ⟨rfl, short⟩)
        · exact ⟨p, reached, .uncounted ready none⟩
        · exact Failed.apart reached rfl (by simp)
        · exact Failed.apart reached rfl (by simp)
        · exact ⟨p, reached, .short ready short (.inr rfl)⟩

theorem closeImpl_spec (status : Status) (sound : state.TxSound) :
    (closeImpl status).wp ⟨fun _ after => ∃ closed,
          state.aborting = true ∧ after = { state with closed } ∨
          state.aborting = false ∧ ∃ ackStates, after = { state.aborted ackStates with closed } ∧
            ∀ ackState, (ackStates.find ackState).getD {} =
              (state.counters ackState).giveBack (unackedOf ackState state.writtenInDeferred),
        fun _ _ => False, fun assertion => assertion = .deferredAbortCount⟩ state := by
  refine wp_mono_stops (abortImpl_spec (by exact sound)) ?_ (fun _ _ => id) (fun _ => And.left)
  rintro _ after (⟨aborting, rfl⟩ | ⟨running, same, given⟩)
  · exact ⟨_, .inl ⟨aborting, rfl⟩⟩
  · exact ⟨_, .inr ⟨running, after.ackStates, same, given⟩⟩

section

variable (reached : At env event start p)
include reached

theorem updateTokenIfNeededImpl_walk
    (changes : p.opening = true → event.changesContext start = true) :
    (updateTokenIfNeededImpl env).wp
      (walkAnd env event start (fun _ after => p.state.Busy → after.Busy)
        fun _ after => { p with state := after }) p.state := by
  simp only [updateTokenIfNeededImpl, wp_rules]
  refine ⟨fun _ => ⟨id, reached⟩, fun _ => ⟨fun fails => ?_, fun _ => ⟨id, reached⟩⟩⟩
  refine wp_mono_stops (closeImpl_spec _ reached.sound) ?_ (fun _ _ => False.elim)
    (fun _ failed => failed ▸ Failed.apart reached rfl (by simp))
  rintro _ _ ⟨closed, ⟨aborting, rfl⟩ | ⟨running, ackStates, rfl, given⟩⟩
  · exact ⟨id, .move reached (.marks (.inr aborting))⟩
  · exact ⟨id, .move reached (.expires running fails changes given)⟩

theorem writeToProcessorImpl_walk (busy : p.state.Busy) : (writeToProcessorImpl env p.request).wp
      (walk env event start fun _ after => { p with state := after, request := {} }) p.state := by
  simp only [writeToProcessorImpl, wp_rules]
  refine ⟨fun aborting => .move reached (.drops aborting), fun running => ?_⟩
  exact .move reached (.writes (by simpa using running) busy)

theorem sendImpl_walk (sends : Sends env event start p)
    (packed : p.block = none) (empty : p.request = {})
    (changes : p.opening = true → event.changesContext start = true) :
    (sendImpl env).wp (walk env event start fun _ after => { p with state := after }) p.state := by
  simp only [sendImpl, wp_rules]
  generalize p.state.packedMessagesToSend.length = turns
  induction turns generalizing p with
  | zero => exact reached
  | succ turns ih =>
    simp only [sendRequests, wp_bind]
    refine wp_mono_stops (isReadyToSendNextImpl_spec env p.state) ?_ (fun _ _ => False.elim)
      (fun _ unready => ⟨p, reached, .unready unready⟩)
    rintro ready _ ⟨rfl, whenReady⟩
    simp only [wp_rules]
    refine ⟨fun isReady => ?_, fun _ => reached⟩
    obtain ⟨block, front, rest, ready⟩ := whenReady isReady
    have busy : p.state.Busy := .inl (ne_nil_of_mem (PriorityQueue.top?_mem ready.topmost))
    rw [← empty]
    refine wp_then (fillRequest_walk _ _ reached sends packed busy) ?_
    rintro request filled ⟨busy, reached⟩
    refine wp_then (updateTokenIfNeededImpl_walk reached changes) ?_
    rintro _ updated ⟨stays, reached⟩
    refine wp_then (writeToProcessorImpl_walk reached (stays busy)) ?_
    intro _ written reached
    have rest := ih reached { sends with } packed rfl changes
    rw [← empty] at rest
    exact rest

/-! ## Compression -/

omit reached in
theorem compressWriteBlock_spec (env : Environment) (block : Block) (state : State) :
    (compressWriteBlock env block).wp
      ⟨fun packed after => after = state ∧ Compresses env block packed, fun _ after => after = state ∧
          env.compresses block = false,
        fun assertion => assertion = .compressedDataNotEmpty⟩ state := by
  unfold compressWriteBlock Environment.compresses
  by_cases single : env.settings.codec = .kafkaBatch ∧ block.originalDataRefs.length = 1
  · rw [if_pos single]
    exact ⟨rfl, .kept⟩
  · rw [if_neg single]
    cases env.encode env.settings.codec block.originalDataRefs with
    | none => exact ⟨rfl, by simp [single]⟩
    | some data =>
      simp only [wp_rules, Bool.not_eq_true']
      exact ⟨fun nonempty => ⟨trivial, .coded nonempty⟩, fun _ => trivial⟩

theorem tryIssueContinuationTokenImpl_walk (unsettled : p.settled = false) :
    (tryIssueContinuationTokenImpl env).wp (walk env event start fun issued after =>
      { p with state := after, settled := true, due := p.due + issued.toNat }) p.state := by
  simp only [tryIssueContinuationTokenImpl, wp_rules, Bool.or_eq_true, decide_eq_true_eq]
  refine ⟨fun refused => .move reached (.refuses unsettled (by tauto)), fun issued => ?_⟩
  simp only [not_or, Bool.not_eq_true] at issued
  exact .move reached (.issues unsettled issued.1.1 issued.1.2)

theorem pushEvent_walk {due : Nat} (owed : p.due = due + 1) : (pushEvent .readyToAccept).wp
      (walk env event start fun _ after => { p with state := after, due }) p.state := by
  simp only [pushEvent, wp_update]
  split
  · rename_i closed
    exact .move reached (.pushes owed (by rw [Pushed, if_pos closed]))
  · rename_i open'
    exact .move reached (.pushes owed (by rw [Pushed, if_neg open']))

omit reached in
theorem pushIssued_walk (issued : Bool) (reached : At env event start p) {due : Nat}
    (owed : p.due = due + issued.toNat) :
    (Code.when issued (pushEvent .readyToAccept)).wp
      (walk env event start fun _ after => { p with state := after, due }) p.state := by
  cases issued with
  | true => exact pushEvent_walk reached owed
  | false =>
    obtain rfl : p.due = due := owed
    exact reached

omit reached in
theorem onMemoryUsageChangedImpl_wp
    (changed : ∀ usage : Nat, (usage : Int) = state.memoryUsage + diff →
      contract.returns () { state with memoryUsage := usage })
    (exceeds : state.memoryUsage + diff < 0 → contract.stops .memoryUsageCovers) :
    (onMemoryUsageChangedImpl diff).wp contract state := by
  simp only [onMemoryUsageChangedImpl, wp_rules, decide_eq_true_eq, decide_eq_false_iff_not]
  exact ⟨fun positive => changed _ (by omega), fun negative => ⟨fun _ => changed _ (by omega),
    fun _ => exceeds (by omega)⟩⟩

omit reached in
theorem Compresses.originalMemoryUsage (made : Compresses env block packed) :
    packed.originalMemoryUsage = block.originalMemoryUsage := by
  cases made <;> rfl

theorem onCompressedImpl_walk {packed : Block}
    (sends : Sends env event start p) (held : p.block = some block) (uncoded : block.compressed = false)
    (made : Compresses env block packed) (empty : p.request = {})
    (inside : p.flushing = true ∨ start.compressing ≠ [])
    (changes : p.opening = true → event.changesContext start = true) :
    (onCompressedImpl env packed).wp (walk env event start fun _ after =>
      { p with state := after, block := none, settled := false }) p.state := by
  have finish {charged : State}
      (reached : At env event start { p with state := charged, block := none, settled := false }) :
      (if env.settings.compressionExecutorIsAsync then
          .update (fun state => { state with sendImplScheduled := true })
        else sendImpl env : Session Unit).wp (walk env event start fun _ after =>
          { p with state := after, block := none, settled := false }) charged := by
    simp only [wp_rules]
    refine ⟨fun _ => .move reached (.marks (.inl rfl)), fun sync => ?_⟩
    exact sendImpl_walk reached { sends with
      unsettled := fun _ => ⟨by simpa using sync, inside⟩ } rfl empty changes
  have same := made.originalMemoryUsage
  simp only [onCompressedImpl, wp_bind, wp_when]
  refine ⟨fun coded => ?_, fun plain => finish ?_⟩
  · refine onMemoryUsageChangedImpl_wp (fun usage charged => finish ?_) (fun exceeds => ?_)
    · have total : usage + block.originalMemoryUsage = p.state.memoryUsage + packed.memory := by
        rw [Block.memory, if_pos coded]
        omega
      exact .move reached (.compresses held uncoded made total)
    · exact ⟨p, reached, .overdrawn (.inl ⟨block, held, rfl⟩) (by omega)⟩
  · refine .move reached (.compresses held uncoded made ?_)
    rw [Block.memory, if_neg (by simp [plain]), same]

theorem compressionTask_walk (sends : Sends env event start p)
    (held : p.block = some block) (empty : p.request = {})
    (inside : p.flushing = true ∨ start.compressing ≠ [])
    (changes : p.opening = true → event.changesContext start = true) :
    (compressionTask env block).wp (walk env event start fun _ after =>
      { p with state := after, block := none, settled := true }) p.state := by
  simp only [compressionTask, onCompressed, wp_rules, Bool.not_eq_true']
  refine ⟨fun uncoded => ?_, fun _ => Failed.apart reached rfl (by simp)⟩
  refine wp_mono_stops (compressWriteBlock_spec env block p.state) ?_ ?_
    (fun _ failed => failed ▸ Failed.apart reached rfl (by simp))
  · rintro packed _ ⟨rfl, made⟩
    refine wp_then (onCompressedImpl_walk reached sends held uncoded made empty inside changes) ?_
    intro _ sent reached
    refine wp_then (tryIssueContinuationTokenImpl_walk reached rfl) ?_
    intro issued tried reached
    cases issued with
    | false => exact ⟨fun impossible => by contradiction, fun _ => reached⟩
    | true => exact ⟨fun _ => ⟨fun _ => pushEvent_walk reached rfl, fun _ => .move reached (.parks rfl)⟩,
        fun impossible => by contradiction⟩
  · rintro _ _ ⟨rfl, fails⟩
    exact ⟨p, reached, .uncoded sends held empty fails⟩

end

/-! ## Batches -/

@[simp] theorem MessageBatch.acquire_messages (batch : MessageBatch) :
    batch.acquire.messages = batch.messages := by
  unfold MessageBatch.acquire
  split <;> rfl

theorem MessageBatch.acquire_hasCodec (batch : MessageBatch) :
    batch.acquire.hasCodec = batch.hasCodec := by
  rw [MessageBatch.hasCodec, MessageBatch.acquire_messages, MessageBatch.hasCodec]

theorem MessageBatch.acquire_currentSize (batch : MessageBatch) :
    batch.acquire.currentSize = batch.currentSize := by
  unfold MessageBatch.acquire
  split <;> rfl

theorem MessageBatch.acquire_empty (batch : MessageBatch) : batch.acquire.empty = batch.empty := by
  rw [MessageBatch.empty, MessageBatch.acquire_messages, MessageBatch.acquire_currentSize,
    MessageBatch.empty]

theorem buildBlock_spec (batchSize : Nat) (messages : List Message) (block : Block)
    (state : State) :
    (buildBlock batchSize messages block).wp ⟨fun built after =>
          built = messages.foldl Block.add block ∧
          (∀ message ∈ messages, message.codec ≠ none → batchSize = 1) ∧
          ∃ compressed uncompressed, after = { state with
            bytesInflightCompressed := compressed, bytesInflightUncompressed := uncompressed
            originalMessagesToSend :=
              state.originalMessagesToSend ++ messages.map Message.toOriginal },
        fun _ _ => False, fun assertion => assertion = .encodedMessageAlone⟩ state := by
  induction messages generalizing block state with
  | nil => exact ⟨rfl, by simp, _, _, by rw [map_nil, append_nil]⟩
  | cons message rest ih =>
    have joins : (addToBlock batchSize block message).wp ⟨fun joined after =>
          joined = block.add message ∧ (message.codec ≠ none → batchSize = 1) ∧
          ∃ compressed uncompressed, after = { state with
            bytesInflightCompressed := compressed, bytesInflightUncompressed := uncompressed
            originalMessagesToSend := state.originalMessagesToSend ++ [message.toOriginal] },
        fun _ _ => False, fun assertion => assertion = .encodedMessageAlone⟩ state := by
      simp only [addToBlock, addToBlock.setMessageCodec, Block.add, wp_bind]
      cases message.codec with
      | none =>
        simp only [wp_rules]
        refine ⟨trivial, fun coded => absurd rfl coded, ?_⟩
        split <;> exact ⟨_, _, rfl⟩
      | some codec =>
        simp only [wp_rules, beq_iff_eq, beq_eq_false_iff_ne]
        exact ⟨fun alone => ⟨trivial, fun _ => alone, _, _, rfl⟩, fun _ => trivial⟩
    simp only [buildBlock, wp_bind]
    refine wp_then joins ?_
    rintro _ _ ⟨rfl, alone, _, _, rfl⟩
    refine wp_then (ih _ _) ?_
    rintro _ _ ⟨rfl, restAlone, _, _, rfl⟩
    exact ⟨rfl, forall_mem_cons.mpr ⟨alone, restAlone⟩, _, _, by
      rw [map_cons, append_cons _ _ (rest.map Message.toOriginal)]⟩

theorem rebaseDataRefs_map
    (found : rebaseDataRefs data dataOffset messages = some rebased) (view : Message → β)
    (blind : ∀ message bytes, bytes.length = message.dataRef.length →
      view { message with dataRef := bytes } = view message) :
    rebased.map view = messages.map view := by
  induction messages generalizing dataOffset rebased with
  | nil => cases found; rfl
  | cons message rest ih =>
    rw [rebaseDataRefs] at found
    split at found
    · obtain ⟨others, tail, same⟩ := Option.bind_eq_some_iff.mp found
      cases same
      have length : ((data.drop dataOffset).take message.dataRef.length).length =
          message.dataRef.length := by
        rw [length_take, length_drop]
        omega
      rw [map_cons, map_cons, ih tail, blind message _ length]
    · contradiction

theorem rebaseDataRefs_toRecord
    (found : rebaseDataRefs data dataOffset messages = some rebased) :
    rebased.map Message.toRecord = messages.map Message.toRecord :=
  rebaseDataRefs_map found Message.toRecord fun message bytes length => by simp [Message.toRecord, length]

theorem MessageBatch.rebased_length {batch : MessageBatch} {rebased : List Message}
    (found : batch.rebased = some rebased) : rebased.length = batch.messages.length := by
  have same := congrArg List.length (rebaseDataRefs_toRecord found)
  rwa [length_map, length_map] at same

theorem MessageBatch.emptied_hasCodec {batch : MessageBatch} {rebased : List Message}
    (found : batch.rebased = some rebased) : (batch.emptied rebased).hasCodec = batch.hasCodec := by
  have codecs := rebaseDataRefs_map found Message.codec (fun _ _ _ => rfl)
  cases messages : batch.messages with
  | nil =>
    rw [messages] at codecs
    simp [MessageBatch.hasCodec, MessageBatch.emptied, messages, map_eq_nil_iff.mp codecs]
  | cons front rest =>
    rw [messages] at codecs
    obtain ⟨first, others, rfl, same, _⟩ := map_eq_cons_iff.mp codecs
    simp [MessageBatch.hasCodec, MessageBatch.emptied, messages, Message.movedFrom, same]

theorem At.skips (reached : At env event start p) (coded : p.state.currentBatch.hasCodec = true) :
    Skips env event start := by
  induction reached with
  | start => exact .inr (.inl coded)
  | @move p _ _ moved ih =>
    cases moved with
    | builds _ _ _ _ found =>
      rw [MessageBatch.emptied_hasCodec found] at coded
      exact ih coded
    | clears => contradiction
    | @accepts now message _ _ _ written =>
      cases messages : p.state.currentBatch.messages with
      | nil =>
        refine .inr (.inr ⟨now, message, written, ?_⟩)
        simpa [MessageBatch.hasCodec, MessageBatch.add, messages, WriteMessage.toMessage] using coded
      | cons front rest =>
        refine ih ?_
        simpa [MessageBatch.hasCodec, MessageBatch.add, messages] using coded
    | _ => exact ih coded

theorem Event.mayThrow_of_mayFlush (flushes : event.mayFlush = true) : event.mayThrow = true := by
  cases event <;> first | rfl | contradiction

theorem compressImpl_walk (reached : At env event start p) (flushes : event.mayFlush = true)
    (held : p.block = some block) (flushing : p.flushing = true) (settled : p.settled = true)
    (empty : p.request = {}) (coded : env.settings.codec ≠ .raw)
    (due : p.due = 0 ∨ (∃ now message, event = .write now message) ∨ start.firstTokenSent = false)
    (changes : p.opening = true → event.changesContext start = true) :
    (compressImpl env block).wp
      (walk env event start fun _ after => { p with state := after, block := none }) p.state := by
  simp only [compressImpl, wp_rules]
  refine ⟨fun aborting => .move reached (.loses aborting), fun _ => ?_⟩
  refine wp_mono_stops (getSeqNoImpl_spec _ p.state) ?_ (fun _ _ => False.elim)
    (fun _ unknown => by rcases unknown with rfl | rfl <;> exact Failed.apart reached rfl (by simp))
  rintro _ _ ⟨rfl, _⟩
  refine ⟨fun async => .move reached (.posts held async), fun sync => ?_⟩
  have inline : env.Inline := ⟨by simpa using sync, coded⟩
  have sends : Sends env event start p := {
    throws := Event.mayThrow_of_mayFlush flushes
    inline := fun _ => inline
    unsettled := fun unsettled => by rw [settled] at unsettled; contradiction
    due
    skips := fun _ => .inl inline }
  have walked := compressionTask_walk reached sends held empty (.inl flushing) changes
  rw [← settled] at walked
  exact walked

/-- A flush meets a contract if its second half does, in every state in which the
batch has become waiting originals. -/
theorem writeBatchImpl_wp (env : Environment) {contract : Contract Exception Assertion State Unit}
    (stops : ∀ assertion, assertion.relatesQueues = false →
      assertion ≠ .memoryUsageCovers → contract.stops assertion)
    (finish : ∀ block prepared, Flushed state block prepared →
      state.currentBatch.messages.length ≤ env.settings.batchFlushMessageCount →
      (packBlock env (env.settings.codec == .raw || state.currentBatch.hasCodec) block).wp
        ⟨fun _ after => Code.wp (.when (env.settings.codec == .raw || state.currentBatch.hasCodec)
            (sendImpl env)) contract { after with currentBatch := {} },
          contract.raises, contract.stops⟩ prepared) : (writeBatchImpl env).wp contract state := by
  simp only [writeBatchImpl, wp_bind, wp_require, decide_eq_true_eq,
    MessageBatch.acquire_messages, MessageBatch.acquire_hasCodec]
  refine ⟨fun limited => ?_, fun _ => stops _ rfl (by simp)⟩
  cases rebased : rebaseDataRefs state.currentBatch.acquire.data 0 state.currentBatch.messages with
  | none => exact stops _ rfl (by simp)
  | some messages =>
    simp only [wp_bind]
    refine wp_mono_stops (buildBlock_spec messages.length messages {} state) ?_
      (fun _ _ => False.elim) (fun _ failed => failed ▸ stops _ rfl (by simp))
    rintro _ _ ⟨rfl, alone, compressed, uncompressed, rfl⟩
    exact finish _ _ ⟨messages, compressed, uncompressed, rebased, alone, rfl, rfl⟩ limited

theorem writeBatchImpl_walk (reached : At env event start p) (flushes : event.mayFlush = true)
    (idle : p.block = none ∧ p.flushing = false) (settled : p.settled = true) (empty : p.request = {})
    (due : p.due = 0 ∨ (∃ now message, event = .write now message) ∨ start.firstTokenSent = false)
    (changes : p.opening = true → event.changesContext start = true)
    (waiting : p.state.currentBatch.empty = false) :
    (writeBatchImpl env).wp (walk env event start fun _ after => { p with state := after }) p.state := by
  refine writeBatchImpl_wp env (fun _ => Failed.apart reached) ?_
  rintro _ _ ⟨messages, compressed, uncompressed, rebased, alone, rfl, rfl⟩ limited
  have built := At.move reached
    (@Move.builds _ _ _ _ _ compressed uncompressed flushes idle changes waiting rebased alone limited)
  have cleared {packed : State}
      (reached : At env event start { p with state := packed, block := none, flushing := true }) :
      At env event start { p with state := { packed with currentBatch := {} } } := by
    have same : ({ p with
        state := { packed with currentBatch := {} }, block := none, flushing := false } : Point) =
        { p with state := { packed with currentBatch := {} } } := by
      rw [Point.mk.injEq]
      exact ⟨rfl, rfl, rfl, idle.1.symm, idle.2.symm, rfl, rfl, rfl⟩
    rw [← same]
    exact .move reached (.clears rfl rfl)
  have skips (skipped : (env.settings.codec == .raw || p.state.currentBatch.hasCodec) = true) :
      Sends env event start p := {
    throws := Event.mayThrow_of_mayFlush flushes
    inline := fun flushing => by rw [idle.2] at flushing; contradiction
    unsettled := fun unsettled => by rw [settled] at unsettled; contradiction
    due
    skips := fun _ => .inr (by
      rw [Bool.or_eq_true, beq_iff_eq] at skipped
      exact skipped.elim .inl reached.skips) }
  simp only [packBlock, wp_ite, wp_when]
  refine ⟨fun skipped => ⟨fun _ => ?_, fun unskipped => absurd skipped (by simp [unskipped])⟩,
    fun unskipped => ?_⟩
  · exact sendImpl_walk (cleared (.move built (.packs rfl rfl))) { skips skipped with } idle.1 empty
      changes
  · have coded : env.settings.codec ≠ .raw := fun raw => unskipped (by simp [raw])
    refine wp_then (compressImpl_walk built flushes rfl rfl settled empty coded due changes) ?_
    exact fun _ packed reached => ⟨fun skipped => absurd skipped unskipped, fun _ => cleared reached⟩

theorem MessageBatch.acquire_of_empty {batch : MessageBatch} (empty : batch.empty = true) :
    batch.acquire = batch := by
  have none : batch.messages = [] := by
    rw [MessageBatch.empty, Bool.and_eq_true, List.isEmpty_iff] at empty
    exact empty.2
  unfold MessageBatch.acquire
  rw [none]
  cases batch.acquired <;> rfl

theorem flushWriteIfRequiredImpl_walk (now : Instant) (reached : At env event start p)
    (acquired : p.state = { state with currentBatch := state.currentBatch.acquire })
    (unrequested : state.currentBatch.flushRequested = false) (flushes : event.mayFlush = true)
    (idle : p.block = none ∧ p.flushing = false) (settled : p.settled = true) (empty : p.request = {})
    (due : p.due = 0 ∨ (∃ now message, event = .write now message) ∨ start.firstTokenSent = false)
    (opened : p.opening = false) :
    (flushWriteIfRequiredImpl env now).wp
      (walk env event start fun _ after => { p with state := after }) state := by
  simp only [flushWriteIfRequiredImpl, wp_rules, unrequested, Bool.not_false, Bool.and_true,
    Bool.not_eq_true', Bool.not_eq_false']
  rw [← acquired]
  refine ⟨fun required => ⟨fun _ => writeBatchImpl_walk reached flushes idle settled empty due ?_ ?_,
    fun _ => reached⟩, fun skipped => ?_⟩
  · intro opening
    rw [opened] at opening
    contradiction
  · rw [acquired, MessageBatch.acquire_empty]
    exact required
  · rw [MessageBatch.acquire_of_empty skipped] at acquired
    have same : p.state = state := acquired
    rw [← same]
    exact reached

end YdbSdk.Topic.WriteSession
