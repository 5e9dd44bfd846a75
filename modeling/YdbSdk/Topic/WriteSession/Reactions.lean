import YdbSdk.Topic.WriteSession.Sending

namespace YdbSdk.Topic.WriteSession

open YdbSdk.Control YdbSdk.Data Code List

/-! # Reactions, move by move

The code of every event walks along the moves.  So an invariant that the moves keep is
kept by every reaction.
-/

variable {env : Environment} {event : Event} {start state : State} {p : Point}

theorem getNextIdImpl_spec (env : Environment) (seqNo : Option Nat) (state : State) :
    (getNextIdImpl env seqNo).wp
      ⟨fun id after => after = { state with
            nextId := state.nextId + 1
            autoSeqNoMode := state.autoSeqNoMode.or (some seqNo.isNone) } ∧
          NumberTaken state.autoSeqNoMode state.nextId seqNo id, fun _ after => after = { state with
          nextId := state.nextId + 1
          autoSeqNoMode := state.autoSeqNoMode.or (some seqNo.isNone) },
        fun _ => False⟩ state := by
  obtain ⟨auto, mode⟩ : ∃ auto, state.autoSeqNoMode.or (some seqNo.isNone) = some auto := by
    cases state.autoSeqNoMode <;> simp
  simp only [getNextIdImpl, wp_rules, NumberTaken]
  cases seqNo with
  | some given =>
    simp only [wp_rules]
    exact ⟨fun _ => trivial, fun _ => ⟨fun _ => trivial, fun manual => by simpa using manual⟩⟩
  | none =>
    simp only [wp_rules]
    exact ⟨fun _ => trivial, fun automatic => by simpa using automatic⟩

theorem closeImpl_walk (status : Status) (reached : At env event start p) :
    (closeImpl status).wp
      (walk env event start fun _ after => { p with state := after, opening := false }) p.state := by
  refine wp_mono_stops (closeImpl_spec status reached.sound) ?_ (fun _ _ => False.elim)
    (fun _ failed => failed ▸ Failed.apart reached rfl nofun)
  rintro _ _ ⟨closed, ⟨aborting, rfl⟩ | ⟨running, ackStates, rfl, given⟩⟩
  · exact .move (.move reached (.marks (.inr aborting))) .quits
  · exact .move reached (.aborts running id given)

theorem trySubscribeOnTransactionCommit_walk {now : Instant} {message : WriteMessage}
    (reached : At env event start { state, opening := true }) (written : event = .write now message) :
    (trySubscribeOnTransactionCommit message.tx).wp
      ⟨fun _ after => At env event start { state := after, opening := true } ∧
          ∀ tx, message.tx = some tx → ∃ index, after.txs.find tx.id = some index,
        fun _ after => ∃ p, At env event start p ∧ Throws env event start p after,
        fun _ => False⟩ state := by
  cases inTx : message.tx with
  | none => exact ⟨reached, nofun⟩
  | some tx =>
    simp only [trySubscribeOnTransactionCommit, wp_bind]
    refine wp_imp (getOrCreateTxInfo_spec tx.id state) ?_
    rintro index _ ⟨opened, opens, rfl⟩
    obtain ⟨info, found, _⟩ := (opens.sound reached.sound).find opens.find
    have named (other : Transaction) (same : some tx = some other) :
        ∃ index, opened.txs.find other.id = some index := by
      cases same
      exact ⟨index, opens.find⟩
    have twice : (opened.txInfos.modify index (fun info => { info with
        isActive := true, subscribed := true, allAcksReceived := none })).modify index
        (fun info => { info with callbackAdded := true }) =
        opened.txInfos.modify index (.subscribe true) := by
      rw [modify_modify_eq]
      rfl
    have once : opened.txInfos.modify index (fun info => { info with
        isActive := true, subscribed := true, allAcksReceived := none }) =
        opened.txInfos.modify index (.subscribe false) := rfl
    simp only [wp_rules, State.register, found, updateTxInfo]
    refine ⟨fun subscribed => ⟨?_, named⟩, fun unsubscribed => ?_⟩
    · cases opens with
      | found => exact reached
      | created =>
        simp only [List.getElem?_concat_length, Option.some.injEq] at found
        rw [← found] at subscribed
        contradiction
    · have subscribes : At env event start { state := _, opening := tx.changesAreAccepted } :=
        .move reached (.subscribes written inTx rfl opens found (by simpa using unsubscribed))
      refine ⟨fun accepted => ⟨?_, named⟩, fun refused => ?_⟩
      · rw [accepted] at subscribes
        rw [twice]
        exact subscribes
      · rw [Bool.eq_false_iff.mpr refused] at subscribes
        exact ⟨_, subscribes, .rejected (by rw [written]; rfl) rfl⟩

theorem WriteMessage.transaction_of_writeContext {message : WriteMessage}
    (context : message.writeContext = .transaction txId) : ∃ tx, message.tx = some tx ∧ tx.id = txId := by
  unfold WriteMessage.writeContext at context
  split at context
  · contradiction
  · rename_i tx _ inTx
    exact ⟨tx, inTx, by simpa using context⟩
  · contradiction

theorem MessageBatch.Acquired.acquire_eq {batch : MessageBatch} (acquired : batch.Acquired) :
    batch.acquire = batch := by
  unfold MessageBatch.acquire
  rcases acquired.1 with copied | none
  · rw [copied]
  · rw [none]
    cases batch.acquired <;> rfl

theorem MessageBatch.acquired_acquire {batch : MessageBatch} (unrequested : batch.flushRequested = false) :
    batch.acquire.Acquired := by
  unfold MessageBatch.acquire
  split
  · exact ⟨.inl rfl, unrequested⟩
  · rename_i other
    refine ⟨?_, unrequested⟩
    cases copied : batch.acquired with
    | true => exact .inl rfl
    | false =>
      cases messages : batch.messages.getLast? with
      | none => exact .inr (List.getLast?_eq_none_iff.mp messages)
      | some last => exact (other last copied messages).elim

theorem At.acquired (reached : At env event start p) (sound : start.Sound) :
    p.state.currentBatch.Acquired := by
  induction reached with
  | start => exact sound.batch
  | @move p _ _ moved acquired =>
    cases moved with
    | builds _ _ _ _ found =>
      rw [MessageBatch.emptied, acquired.acquire_eq]
      refine ⟨acquired.1.imp id fun none => ?_, acquired.2⟩
      have length := MessageBatch.rebased_length found
      rw [none] at length
      rw [length_eq_zero_iff.mp length, map_nil]
    | clears => exact ⟨.inr rfl, rfl⟩
    | accepts => exact MessageBatch.acquired_acquire acquired.2
    | _ => exact acquired

theorem acceptance_walk {now : Instant} {message : WriteMessage} {id : Nat} (sound : start.Sound)
    (reached : At env event start { state, opening := true }) (written : event = .write now message)
    (named : ∀ tx, message.tx = some tx → ∃ index, state.txs.find tx.id = some index)
    (numbered : NumberTaken state.autoSeqNoMode state.nextId message.seqNo id) :
    (do
      let (registered, txInfo) ← registerWrite id message.writeContext
      if !registered then closeImpl .badRequest
      else do
        acceptMessage now (message.toMessage now id) txInfo
        Code.update (fun state => { state with continuationTokenIssued := false })
        onMemoryUsageChangedImpl message.data.length
        let readyToAccept ← tryIssueContinuationTokenImpl env
        flushWriteIfRequiredImpl env now
        Code.when readyToAccept (pushEvent .readyToAccept) : Session Unit).wp
      (walk env event start fun _ after => { state := after })
      { state with
        nextId := state.nextId + 1
        autoSeqNoMode := state.autoSeqNoMode.or (some message.seqNo.isNone) } := by
  simp only [wp_bind]
  refine wp_mono_stops (registerWrite_spec id message.writeContext _) ?_ (fun _ _ => False.elim)
    (fun _ => False.elim)
  rintro ⟨_, txInfo⟩ _ (⟨rfl, registered, registers, rfl⟩ | ⟨rfl, rfl⟩)
  · have accepted := At.move reached (.accepts written rfl ⟨rfl, rfl⟩ numbered (fun txId context => by
      obtain ⟨tx, inTx, rfl⟩ := WriteMessage.transaction_of_writeContext context
      exact ⟨⟨tx, inTx⟩, named tx inTx⟩) registers)
    have unrequested : (state.currentBatch.add now (message.toMessage now id)).flushRequested = false :=
      (reached.acquired sound).2
    have flushes {due : Nat} {later : State}
        (tried : At env event start
          { state := { later with currentBatch := later.currentBatch.acquire }, due })
        (same : later.currentBatch = state.currentBatch.add now (message.toMessage now id))
        (issued : Bool) (owed : due = issued.toNat) :
        (flushWriteIfRequiredImpl env now).wp ⟨fun _ =>
          (Code.when issued (pushEvent .readyToAccept)).wp
            (walk env event start fun _ after => { state := after }), fun _ after =>
              ∃ p, At env event start p ∧ Throws env event start p after,
          fun assertion => ∃ p, At env event start p ∧ Fails env p assertion⟩ later := by
      refine wp_then (flushWriteIfRequiredImpl_walk now tried rfl (same ▸ unrequested)
        (by rw [written]; rfl) ⟨rfl, rfl⟩ rfl rfl (.inr (.inl ⟨_, _, written⟩)) rfl) ?_
      exact fun _ flushed reached => pushIssued_walk issued reached (by rw [owed]; exact (Nat.zero_add _).symm)
    simp only [acceptMessage, wp_ite, wp_bind, wp_update]
    refine ⟨fun impossible => by contradiction, fun _ => ?_⟩
    refine onMemoryUsageChangedImpl_wp (fun usage charged => ?_) (fun exceeds => by omega)
    obtain rfl : usage = state.memoryUsage + message.data.length := by
      simp only [State.register] at charged
      omega
    simp only [tryIssueContinuationTokenImpl, wp_ite, wp_bind, wp_get, wp_pure,
      wp_update, Bool.or_eq_true, decide_eq_true_eq, or_assoc]
    refine ⟨fun refused => ?_, fun issued => ?_⟩
    · exact flushes (.move accepted (.refuses rfl refused)) rfl false rfl
    · simp only [not_or, Bool.not_eq_true] at issued
      exact flushes (.move accepted (.issues rfl issued.1 rfl)) rfl true rfl
  · simp only [wp_rules]
    refine ⟨fun _ => ?_, fun impossible => by contradiction⟩
    exact closeImpl_walk _ (.move reached (.numbers rfl))

theorem writeInternal_walk {now : Instant} {message : WriteMessage} (sound : start.Sound) :
    (writeInternal env now message).wp
      (walk env (.write now message) start fun _ after => { state := after }) start := by
  have reached : At env (.write now message) start { state := start, opening := true } :=
    .start sound.txs
  rw [writeInternal, wp_ite]
  refine ⟨fun _ => closeImpl_walk _ reached, fun _ => ?_⟩
  have flushed : (Code.when (start.currentBatch.messages.head?.any
        (fun front => !front.writeContext.same message.writeContext)) (writeBatchImpl env)).wp
      (walk env (.write now message) start fun _ after => { state := after, opening := true }) start := by
    rw [wp_when]
    refine ⟨fun changes => writeBatchImpl_walk reached rfl ⟨rfl, rfl⟩ rfl rfl (.inl rfl)
      (fun _ => changes) ?_,
      fun _ => reached⟩
    rw [MessageBatch.empty, Bool.and_eq_false_imp]
    intro _
    cases messages : start.currentBatch.messages with
    | nil => simp [messages] at changes
    | cons front rest => rfl
  rw [wp_bind, wp_read]
  refine wp_bind.mpr (wp_then flushed ?_)
  intro _ cleared reached
  refine wp_bind.mpr (wp_mono_stops (trySubscribeOnTransactionCommit_walk reached rfl) ?_
    (fun _ _ => id) (fun _ => False.elim))
  rintro _ subscribed ⟨reached, named⟩
  refine wp_bind.mpr (wp_mono_stops (getNextIdImpl_spec env message.seqNo subscribed) ?_ ?_
    (fun _ => False.elim))
  · rintro id _ ⟨rfl, numbered⟩
    exact acceptance_walk sound reached rfl named numbered
  · rintro _ _ rfl
    exact ⟨_, .move reached (.numbers rfl), .rejected rfl rfl⟩

theorem flush_walk (sound : start.Sound) :
    (flush env).wp (walk env .flush start fun _ after => { state := after }) start := by
  have reached : At env .flush start { state := start } := .start sound.txs
  have flushed : (Code.when (!start.currentBatch.empty) (writeBatchImpl env)).wp
      (walk env .flush start fun _ after => { state := after }) start := by
    rw [wp_when, Bool.not_eq_true']
    exact ⟨writeBatchImpl_walk reached rfl ⟨rfl, rfl⟩ rfl rfl (.inl rfl) nofun, fun _ => reached⟩
  simp only [flush, wp_ite, wp_bind, wp_read]
  refine ⟨fun _ => reached, fun _ => wp_then flushed ?_⟩
  exact fun _ _ reached => .move reached .attaches

theorem getInitSeqNo_walk (sound : start.Sound) :
    (getInitSeqNo env).wp (walk env .getInitSeqNo start fun _ after => { state := after }) start := by
  have reached : At env .getInitSeqNo start { state := start } := .start sound.txs
  have thrown : ∃ p, At env .getInitSeqNo start p ∧ Throws env .getInitSeqNo start p start :=
    ⟨_, reached, .rejected rfl rfl⟩
  simp only [getInitSeqNo, wp_rules]
  exact ⟨fun _ => thrown, fun _ => ⟨fun _ => ⟨fun _ => thrown, fun notAuto =>
    .move reached (.fixes notAuto rfl)⟩, fun _ => reached⟩⟩

/-! ## Acknowledgements -/

theorem getIdImpl_spec (seqNo : Nat) (state : State) :
    (getIdImpl seqNo).wp ⟨fun id after => after = state ∧ state.id? seqNo = some id, fun _ _ => False,
        fun assertion => assertion = .autoSeqNoModeKnown ∨
          assertion = .seqNoAboveInitSeqNo⟩ state := by
  simp only [getIdImpl, wp_rules, State.id?]
  cases state.autoSeqNoMode with
  | none => exact .inl rfl
  | some auto =>
    cases auto with
    | false => exact ⟨rfl, rfl⟩
    | true =>
      cases state.initSeqNo with
      | none => exact .inr rfl
      | some initSeqNo =>
        simp only [wp_rules, decide_eq_true_eq, true_and]
        exact ⟨fun above => if_pos above, fun _ => .inr trivial⟩

theorem releaseOriginals_spec (id count : Nat) (state : State) :
    (releaseOriginals id count).wp ⟨fun _ after => ∃ released kept results,
          released.map (fun message => message.id) = .range' id count ∧
          state.sentOriginalMessages = released ++ kept ∧
          after = { state with
            writtenInTx := state.writtenInTx.eraseAll (.range' id count)
            sentOriginalMessages := kept
            acked := state.acked ++ released.map OriginalMessage.toMessageRecord
            flushResults := results },
        fun _ _ => False, fun assertion => assertion = .acknowledgedOriginals ∨
          assertion = .acknowledgedId⟩ state := by
  induction count generalizing id state with
  | zero => exact ⟨[], _, state.flushResults, rfl, rfl, by simp [Assoc.eraseAll]⟩
  | succ count ih =>
    simp only [releaseOriginals, wp_rules]
    cases sent : state.sentOriginalMessages with
    | nil => exact .inl rfl
    | cons front rest =>
      simp only [wp_rules, beq_iff_eq]
      refine ⟨?_, fun _ => .inr trivial⟩
      rintro rfl
      refine wp_imp (ih (front.id + 1) _) ?_
      rintro _ _ ⟨released, kept, results, ids, split, rfl⟩
      refine ⟨front :: released, kept, results, ?_, congrArg (front :: ·) split, ?_⟩
      · rw [map_cons, ids, List.range'_succ]
      · simp [List.range'_succ, Assoc.eraseAll]

/-- The memory usage without the block that the acknowledgement of `id` releases, and whether
a token was issued for it. -/
structure Freed (env : Environment) (id : Nat) (state : State) (usage : Nat) (token : Bool) : Prop where
  freed : usage + ((state.releasedBy id).map Block.memory).getD 0 = state.memoryUsage
  issued : token = true → state.releasedBy id ≠ none ∧ state.aborting = false ∧
    state.continuationTokenIssued = false
  refused : token = false → state.releasedBy id = none ∨ state.aborting = true ∨
    state.continuationTokenIssued = true ∨ env.settings.maxMemoryUsage < usage

theorem releasePacked_spec (env : Environment) (id : Nat) (sentFront : OriginalMessage)
    (state : State) :
    (releasePacked env id sentFront).wp ⟨fun token after => ∃ usage compressed uncompressed,
          Freed env id state usage token ∧ after = { state with
            memoryUsage := usage
            bytesInflightCompressed := compressed, bytesInflightUncompressed := uncompressed
            sentPackedMessage := state.packedAfterAck id
            continuationTokenIssued := token || state.continuationTokenIssued },
        fun _ _ => False, fun assertion => assertion = .memoryUsageCovers ∧
          ∃ block ∈ state.sentPackedMessage, state.memoryUsage < block.memory⟩ state := by
  have unpacked {stops : Assertion → Prop} (other : state.releasedBy id = none)
      (kept : state.packedAfterAck id = state.sentPackedMessage) :
      (releasePacked.unpacked sentFront).wp ⟨fun token after => ∃ usage compressed uncompressed,
          Freed env id state usage token ∧ after = { state with
            memoryUsage := usage
            bytesInflightCompressed := compressed, bytesInflightUncompressed := uncompressed
            sentPackedMessage := state.packedAfterAck id
            continuationTokenIssued := token || state.continuationTokenIssued },
        fun _ _ => False, stops⟩ state :=
    ⟨_, _, _, ⟨by rw [other]; rfl, by simp, fun _ => .inl other⟩, by rw [kept]; rfl⟩
  simp only [releasePacked, wp_bind, wp_read]
  cases sent : state.sentPackedMessage with
  | nil => exact unpacked (by simp [State.releasedBy, sent]) (by simp [State.packedAfterAck, sent])
  | cons front rest =>
    simp only [wp_ite]
    refine ⟨fun here => ?_, fun elsewhere => unpacked (by simp [State.releasedBy, sent, elsewhere])
      (by simp [State.packedAfterAck, sent, elsewhere])⟩
    have released : state.releasedBy id = some front := by
      simp [State.releasedBy, sent, here]
    have dropped : state.packedAfterAck id = rest := by
      simp [State.packedAfterAck, sent, here]
    rw [dropped]
    simp only [wp_bind]
    refine onMemoryUsageChangedImpl_wp (fun usage charged => ?_) (fun exceeds => ?_)
    · have freed : usage + ((state.releasedBy id).map Block.memory).getD 0 = state.memoryUsage := by
        rw [released, Option.map_some, Option.getD_some, Block.memory]
        omega
      simp only [tryIssueContinuationTokenImpl, wp_rules, Bool.or_eq_true, decide_eq_true_eq,
        or_assoc]
      refine ⟨fun refused => ⟨usage, _, _, ⟨freed, by simp, fun _ => .inr refused⟩, rfl⟩,
        fun issued => ⟨usage, _, _, ⟨freed, fun _ => ?_, by simp⟩, rfl⟩⟩
      simp only [not_or, Bool.not_eq_true] at issued
      exact ⟨by rw [released]; simp, issued.1, issued.2.1⟩
    · refine ⟨rfl, front, mem_cons_self, ?_⟩
      rw [Block.memory]
      omega

theorem cleanupOnAcknowledgedImpl_spec (env : Environment) (id : Nat) (state : State) :
    (cleanupOnAcknowledgedImpl env id).wp ⟨fun token after =>
          ∃ released kept results usage compressed uncompressed, Freed env id state usage token ∧
          released.map (fun message => message.id) =
            .range' id (max 1 (ackedMessageCount state id)) ∧
          state.sentOriginalMessages = released ++ kept ∧
          after = { state with
            writtenInTx := state.writtenInTx.eraseAll
              (.range' id (max 1 (ackedMessageCount state id)))
            memoryUsage := usage
            bytesInflightCompressed := compressed, bytesInflightUncompressed := uncompressed
            continuationTokenIssued := token || state.continuationTokenIssued
            sentPackedMessage := state.packedAfterAck id
            sentOriginalMessages := kept
            acked := state.acked ++ released.map OriginalMessage.toMessageRecord
            flushResults := results },
        fun _ _ => False, fun assertion =>
          assertion = .memoryUsageCovers ∧
            (∃ block ∈ state.sentPackedMessage, state.memoryUsage < block.memory) ∨
          assertion.relatesQueues = false ∧ assertion ≠ .memoryUsageCovers⟩ state := by
  simp only [cleanupOnAcknowledgedImpl, wp_rules]
  cases sent : state.sentOriginalMessages with
  | nil => exact .inr ⟨rfl, by simp⟩
  | cons sentFront others =>
    simp only [wp_rules]
    refine wp_mono_stops (releasePacked_spec env id sentFront state) ?_ (fun _ _ => .elim)
      (fun _ => .inl)
    rintro token _ ⟨usage, compressed, uncompressed, freed, rfl⟩
    refine ⟨fun _ => ⟨fun _ => ?_, fun _ => .inr ⟨rfl, by simp⟩⟩, fun _ => .inr ⟨rfl, by simp⟩⟩
    have atLeastOne : (if 1 < ackedMessageCount state id then ackedMessageCount state id else 1) =
        max 1 (ackedMessageCount state id) := by
      split <;> omega
    rw [atLeastOne]
    refine wp_mono_stops (releaseOriginals_spec id _ _) ?_ (fun _ _ => .elim)
      (fun _ failed => by rcases failed with rfl | rfl <;> exact .inr ⟨rfl, by simp⟩)
    rintro _ _ ⟨released, kept, results, ids, split, rfl⟩
    rw [← sent]
    exact ⟨released, kept, results, usage, compressed, uncompressed, freed, ids, split, rfl⟩

theorem processAck_walk (ack : ServerAck) (reached : At env event start p) (settled : p.settled = true)
    (answers : event.answers = true) :
    (processAck env ack).wp (walk env event start fun result after => { p with
      state := after, settled := true, due := p.due + result.2.toNat
      reports := p.reports ++ result.1 }) p.state := by
  simp only [processAck, wp_bind]
  refine wp_mono_stops (getIdImpl_spec ack.seqNo p.state) ?_ (fun _ _ => False.elim)
    (fun _ failed => by rcases failed with rfl | rfl <;> exact Failed.apart reached rfl (by simp))
  rintro firstId _ ⟨rfl, numbered⟩
  refine wp_mono_stops (signalEach_spec firstId _ reached.sound) ?_ (fun _ _ => False.elim)
    (fun _ failed => by rcases failed with rfl | rfl <;> exact Failed.apart reached rfl (by simp))
  rintro _ _ ⟨signalled, signals, rfl⟩
  rw [← List.range'_eq_map_range] at signals
  refine wp_mono_stops (cleanupOnAcknowledgedImpl_spec env firstId _) ?_ (fun _ _ => False.elim) ?_
  · rintro token _ ⟨released, kept, results, usage, compressed, uncompressed, freed, ids, split, rfl⟩
    have reported : ((List.range (ackedMessageCount p.state firstId)).map (fun i =>
        ({ id := firstId + i, status := ack.status, offset := ack.status.baseOffset + i
           partitionId := p.state.partitionId } : WriteAck))).map WriteAck.id =
        .range' firstId (ackedMessageCount p.state firstId) := by
      rw [List.range'_eq_map_range, map_map]
      rfl
    have acknowledged := At.move reached (@Move.acknowledges _ _ _ p ack firstId usage signalled
      released kept _ results compressed uncompressed numbered signals ids split freed.freed reported
      answers)
    have unsettled (released : p.state.releasedBy firstId ≠ none) :
        (p.settled && (p.state.releasedBy firstId).isNone) = false := by
      rw [Option.isNone_eq_false_iff.mpr (Option.isSome_iff_ne_none.mpr released), Bool.and_false]
    cases token with
    | true =>
      obtain ⟨released, running, unissued⟩ := freed.issued rfl
      have issued := At.move acknowledged (.issues (unsettled released) running unissued)
      exact issued
    | false =>
      by_cases released : p.state.releasedBy firstId = none
      · rw [settled, released] at acknowledged
        exact acknowledged
      · have tried := At.move acknowledged (.refuses (unsettled released)
          ((freed.refused rfl).resolve_left released))
        exact tried
  · rintro _ (⟨rfl, block, held, exceeds⟩ | ⟨apart, covered⟩)
    · exact ⟨p, reached, .overdrawn (.inr (.inl ⟨block, held, rfl⟩)) exceeds⟩
    · exact Failed.apart reached apart covered

theorem processAcks_walk (acks : List ServerAck) (reached : At env event start p)
    (settled : p.settled = true) (answers : event.answers = true) :
    (processAcks env acks).wp
      (walkAnd env event start (fun result _ => ∀ event ∈ result.2, event = .readyToAccept)
        fun result after => { p with
          state := after, settled := true, due := p.due + result.2.length
          reports := p.reports ++ result.1 }) p.state := by
  induction acks generalizing p with
  | nil =>
    simp only [processAcks, wp_pure, append_nil, ← settled]
    exact ⟨by simp, reached⟩
  | cons ack rest ih =>
    simp only [processAcks, wp_bind]
    refine wp_then (processAck_walk ack reached settled answers) ?_
    rintro ⟨reports, token⟩ _ reached
    refine wp_imp (ih reached rfl) ?_
    rintro ⟨more, tokens⟩ after ⟨ready, reached⟩
    cases token with
    | false => exact ⟨ready, by simpa using reached⟩
    | true => exact ⟨by simpa using ready, by simpa [Nat.add_assoc, Nat.add_comm 1] using reached⟩

theorem pushEach_walk {tokens : List SessionEvent} (ready : ∀ event ∈ tokens, event = .readyToAccept)
    (reached : At env event start p) {due : Nat} (owed : p.due = due + tokens.length) :
    (Code.forEach tokens pushEvent).wp
      (walk env event start fun _ after => { p with state := after, due }) p.state := by
  induction tokens generalizing p with
  | nil =>
    obtain rfl : p.due = due := owed
    exact reached
  | cons token rest ih =>
    obtain rfl := ready token mem_cons_self
    simp only [Code.forEach, wp_bind]
    refine wp_then (pushEvent_walk reached owed) ?_
    exact fun _ _ reached => ih (fun event listed => ready event (.tail _ listed)) reached rfl

theorem processWriteResponse_walk (acks : List ServerAck) (reached : At env event start { state })
    (answers : event.answers = true) :
    (processWriteResponse env acks).wp
      (walk env event start fun _ after => { state := after }) state := by
  simp only [processWriteResponse, wp_bind]
  refine wp_then (processAcks_walk acks reached rfl answers) ?_
  rintro ⟨reports, tokens⟩ _ ⟨ready, reached⟩
  refine wp_then (pushEach_walk ready reached rfl) ?_
  intro _ pushed reached
  simp only [pushEvent, wp_update]
  split
  · rename_i closed
    exact .move reached (.reports (by rw [Pushed, if_pos closed]))
  · rename_i unclosed
    exact .move reached (.reports (by rw [Pushed, if_neg unclosed]; rfl))

/-! ## Connections -/

theorem processInitResponse_walk {response : InitResponse} (sound : start.Sound)
    (answers : event = .serverMessage start.connectionGeneration (.initResponse response)) :
    (processInitResponse env response).wp
      (walk env event start fun _ after => { state := after }) start := by
  have reached : At env event start { state := start } := by
    rw [answers]
    exact .start sound.txs
  simp only [processInitResponse, wp_bind, wp_read, wp_update, wp_ite]
  refine ⟨fun _ => .move reached (.configures answers ⟨rfl, rfl⟩ (.inl ⟨rfl, rfl⟩)), fun _ => ?_⟩
  have sends {due : Nat} {connected : State} (owed : due = 0 ∨ start.firstTokenSent = false) :
      Sends env event start { state := connected, due } := {
    throws := by rw [answers]; rfl
    inline := by simp
    unsettled := by simp
    due := owed.imp id .inr
    skips := by rw [answers]; rintro ⟨⟩ }
  rw [wp_when]
  refine ⟨fun first => ?_, fun later => ?_⟩
  · rw [wp_update]
    refine wp_then (sendImpl_walk (.move (.move reached (.configures answers ⟨rfl, rfl⟩
      (.inr ⟨rfl, rfl⟩))) (.begins (by simpa using first))) (sends (.inr (by simpa using first))) rfl rfl (by simp)) ?_
    exact fun _ _ reached => pushIssued_walk _ reached (by rw [first]; rfl)
  · refine wp_then (sendImpl_walk (.move reached (.configures answers ⟨rfl, rfl⟩
      (.inr ⟨rfl, rfl⟩))) (sends (.inl rfl)) rfl rfl (by simp)) ?_
    exact fun _ _ reached => pushIssued_walk _ reached (by rw [later]; rfl)

theorem restartImpl_walk (status : Status) (retry switchPartition : Bool)
    (reached : At env event start { state }) :
    (restartImpl status retry switchPartition).wp
      (walk env event start fun _ after => { state := after }) state := by
  simp only [restartImpl, wp_rules]
  refine ⟨fun _ => reached, fun running => ?_⟩
  have running : state.aborting = false := by simpa using running
  refine ⟨fun _ => ?_, fun _ => ?_⟩
  · simp only [resetForRetryImpl, wp_rules]
    refine ⟨fun _ => ⟨fun _ => .move reached (.restarts running rfl), fun short => ?_⟩, fun short => ?_⟩
    · simp [Nat.add_comm] at short
    · simp at short
  · refine wp_mono_stops (closeImpl_spec status (by exact reached.sound)) ?_ (fun _ _ => False.elim)
      (fun _ failed => failed ▸ Failed.apart reached rfl (by simp))
    rintro _ _ ⟨closed, ⟨aborting, rfl⟩ | ⟨_, ackStates, rfl, given⟩⟩
    · contradiction
    · exact .move reached (.aborts running (by rintro ⟨⟩) given)

theorem connect_walk (describePartition clientContext : Bool) (reached : At env event start { state }) :
    (connect describePartition clientContext).wp
      (walk env event start fun _ after => { state := after }) state := by
  simp only [connect, wp_rules, Bool.or_eq_true, Bool.not_eq_true', not_or, Bool.not_eq_true,
    Bool.not_eq_false]
  refine ⟨fun _ => reached, fun due => ⟨fun _ => ?_, fun _ => .move reached (.connects due.1 due.2)⟩⟩
  refine wp_mono_stops (abortImpl_spec reached.sound) ?_ (fun _ _ => False.elim)
    (fun _ failed => failed.1 ▸ Failed.apart reached rfl (by simp))
  rintro _ after (⟨aborting, rfl⟩ | ⟨running, same, given⟩)
  · exact reached
  · rw [same]
    exact .move reached (.aborts running id given)

theorem react_walk (event : Event) (sound : start.Sound) :
    (react env event).wp (walk env event start fun _ after => { state := after }) start := by
  have begin : At env event start (.start event start) := .start sound.txs
  cases event with
  | write now message => exact writeInternal_walk sound
  | wakeUp now =>
    refine flushWriteIfRequiredImpl_walk now begin ?_ sound.batch.2 rfl ⟨rfl, rfl⟩ rfl rfl (.inl rfl) rfl
    rw [sound.batch.acquire_eq]
    rfl
  | flush => exact flush_walk sound
  | getInitSeqNo => exact getInitSeqNo_walk sound
  | close =>
    simp only [react, wp_rules, Bool.and_eq_true, Bool.not_eq_true']
    exact ⟨fun waits => writeBatchImpl_walk begin rfl ⟨rfl, rfl⟩ rfl rfl (.inl rfl) (by rintro ⟨⟩)
      waits.2, fun _ => begin⟩
  | closeTimedOut => exact closeImpl_walk _ begin
  | compressed task =>
    simp only [react, wp_rules]
    cases found : start.compressing[task]? with
    | none => exact begin
    | some block =>
      exact compressionTask_walk (.move begin (.takes rfl found ⟨rfl, rfl⟩ found))
        ⟨rfl, by rintro ⟨⟩, by rintro ⟨⟩, .inl rfl, by rintro ⟨⟩⟩ rfl rfl
        (.inr (ne_nil_of_mem (mem_of_getElem? found))) (by rintro ⟨⟩)
  | scheduledSend =>
    simp only [react, wp_rules]
    exact ⟨fun _ => sendImpl_walk (.move begin (.marks (.inl rfl)))
      ⟨rfl, by rintro ⟨⟩, by rintro ⟨⟩, .inl rfl, by rintro ⟨⟩⟩ rfl rfl (by rintro ⟨⟩), fun _ => begin⟩
  | scheduledToken =>
    simp only [react, wp_rules, decide_eq_true_eq]
    refine ⟨fun scheduled => ?_, fun _ => begin⟩
    exact pushEvent_walk (.move begin (.unparks (Nat.succ_pred_eq_of_pos scheduled).symm)) rfl
  | connect describePartition clientContext => exact connect_walk describePartition clientContext begin
  | connectionError status retry switchPartition =>
    exact restartImpl_walk status retry switchPartition begin
  | directWriteUnimplemented retry switchPartition =>
    exact restartImpl_walk _ retry switchPartition (.move begin (.marks (.inl rfl)))
  | serverMessage generation message =>
    simp only [react, wp_bind, wp_read, wp_when, beq_iff_eq]
    refine ⟨?_, fun _ => begin⟩
    rintro rfl
    cases message with
    | initResponse response => exact processInitResponse_walk sound rfl
    | writeResponse acks => exact processWriteResponse_walk acks begin rfl
  | writeRequestDone request =>
    simp only [react, wp_bind, wp_read]
    cases found : start.pendingWrites[request]? with
    | none => exact begin
    | some memory =>
      simp only [wp_bind, wp_update]
      refine onMemoryUsageChangedImpl_wp (fun usage charged => ?_) (fun exceeds => ?_)
      · have freed : usage + memory = start.memoryUsage := by
          simp only at charged
          omega
        refine wp_then (tryIssueContinuationTokenImpl_walk (.move begin (.releases found freed))
          rfl) ?_
        exact fun issued _ reached => pushIssued_walk issued reached rfl
      · have exceeds : start.memoryUsage < memory := by
          simp only at exceeds
          omega
        exact ⟨_, begin, .overdrawn (.inr (.inr (mem_of_getElem? found))) exceeds⟩
  | tokenUpdateFailed =>
    simp only [react, wp_rules]
    exact ⟨fun _ => closeImpl_walk _ begin, fun _ => begin⟩
  | precommit txInfo =>
    refine wp_mono_stops (precommitCallback_spec txInfo start) ?_ ?_
      (fun _ failed => failed ▸ Failed.apart begin rfl (by simp))
    · rintro _ _ (rfl | ⟨info, found, added, first, unresolved, rfl⟩)
      · exact begin
      · exact .move begin (.commits found added first unresolved)
    · rintro _ _ ⟨info, found, added, first, complete, resolved, rfl⟩
      exact ⟨_, begin, .called rfl found added first complete resolved⟩

/-! ## Invariants -/

theorem Throws.sound {after : State} (throws : Throws env event start p after)
    (reached : At env event start p) (sound : start.Sound) : after.Sound := by
  have acquired := reached.acquired sound
  cases throws with
  | called => exact ⟨reached.sound.modify _ (fun _ => rfl) (fun _ => id), acquired⟩
  | _ => exact ⟨reached.sound, acquired⟩

/-- What holds at the points of a reaction, and with it at its end. -/
structure Carries (env : Environment) (event : Event) (start : State) (inside : Point → Prop)
    (invariant : State → Prop) (stops : Assertion → Prop := fun _ => True) : Prop where
  enters : inside (.start event start)
  moves : ∀ {p q : Point}, At env event start p → Move env event start p q → inside p → inside q
  leaves : ∀ {after : State}, inside { state := after } → invariant after
  thrown : ∀ {p : Point} {after : State}, At env event start p → inside p →
    Throws env event start p after → invariant after
  fails : ∀ {p : Point} {assertion : Assertion}, inside p → Fails env p assertion → stops assertion

section

variable {inside : Point → Prop} {invariant : State → Prop} {stops : Assertion → Prop}

theorem Carries.along (carries : Carries env event start inside invariant stops)
    (reached : At env event start p) : inside p := by
  induction reached with
  | start => exact carries.enters
  | move before moved ih => exact carries.moves before moved ih

theorem Carries.wp (carries : Carries env event start inside invariant stops) (sound : start.Sound) :
    (react env event).wp (.keeping (fun state => state.Sound ∧ invariant state) stops) start := by
  refine wp_mono_stops (react_walk event sound) ?_ ?_ ?_
  · exact fun _ _ reached =>
      ⟨⟨reached.sound, reached.acquired sound⟩, carries.leaves (carries.along reached)⟩
  · rintro _ _ ⟨p, reached, throws⟩
    exact ⟨throws.sound reached sound, carries.thrown reached (carries.along reached) throws⟩
  · rintro _ ⟨p, reached, fails⟩
    exact carries.fails (carries.along reached) fails

end

theorem sound_start : ({} : State).Sound := ⟨⟨nofun, .nil⟩, .inr rfl, rfl⟩

theorem Reaches.carried (reached : Reaches env permitted state)
    (invariant : State → Prop) (along : State → Event → Point → Prop) (stops : Assertion → Prop)
    (initially : invariant {})
    (carries : ∀ start event, start.Sound → invariant start → permitted start event →
      Carries env event start (along start event) invariant stops) : state.Sound ∧ invariant state :=
  reached.invariant ⟨sound_start, initially⟩
    fun start event both allowed => (carries start event both.1 both.2 allowed).wp both.1

end YdbSdk.Topic.WriteSession
