import YdbSdk.Data.Pipeline
import YdbSdk.Topic.WriteSession.Reactions

namespace YdbSdk.Topic.WriteSession

open YdbSdk.Control YdbSdk.Data List

/-! # No message is lost or duplicated

In every state the acknowledged messages, the sent ones, the waiting ones and the
current batch make up the accepted messages in acceptance order, and what was
reported to the user are acknowledged messages, each at most once.
-/

variable {env : Environment} {event : Event} {start state : State} {p q : Point}

/-! ## Flushes that do not throw -/

/-- The server takes every block the session may send now, also one more that is
made of the current batch. -/
def State.BlocksFit (env : Environment) (state : State) : Prop :=
  state.batchingSupported = true ∨ state.sessionEstablished = false ∨
    env.settings.batchFlushMessageCount ≤ 1 ∧
      ∀ block ∈ state.packedMessagesToSend, block.messageCount ≤ 1

/-- Compression does not throw: it runs elsewhere or not at all, or the codec works
and the server takes every block that is sent meanwhile. -/
def FlushesQuietly (env : Environment) (state : State) : Prop :=
  env.settings.compressionExecutorIsAsync = true ∨ env.settings.codec = .raw ∨
    (∀ payloads, env.encode env.settings.codec payloads ≠ none) ∧ state.BlocksFit env

/-- Flushes happen only where compression cannot throw before the batch is cleared. -/
def FlushesOnlyQuietly (env : Environment) (state : State) (event : Event) : Prop :=
  event.mayFlush = true → FlushesQuietly env state

theorem At.mayFlush (reached : At env event start p) (flushing : p.flushing = true) :
    event.mayFlush = true := by
  induction reached with
  | start => contradiction
  | move _ moved ih =>
    cases moved with
    | builds flushes => exact flushes
    | clears => contradiction
    | _ => exact ih flushing

structure Point.BlocksFit (env : Environment) (p : Point) : Prop where
  fit : p.state.BlocksFit env
  held : ∀ block ∈ p.block, block.messageCount ≤ env.settings.batchFlushMessageCount

theorem foldl_add (messages : List Message) (block : Block) :
    (messages.foldl .add block).messageCount = block.messageCount + messages.length ∧
      (messages.foldl .add block).originalMemoryUsage = block.originalMemoryUsage +
        (messages.map (fun message => message.dataRef.length)).sum ∧
      (0 < block.messageCount → (messages.foldl .add block).offset = block.offset) := by
  induction messages generalizing block with
  | nil => exact ⟨rfl, rfl, fun _ => rfl⟩
  | cons message rest ih =>
    obtain ⟨counted, used, placed⟩ := ih (block.add message)
    have added : (block.add message).messageCount = block.messageCount + 1 ∧
        (block.add message).originalMemoryUsage =
          block.originalMemoryUsage + message.dataRef.length ∧
        (0 < block.messageCount → (block.add message).offset = block.offset) := by
      unfold Block.add
      cases message.codec <;> exact ⟨rfl, rfl, fun positive => if_neg (by omega)⟩
    rw [foldl_cons, length_cons, map_cons, sum_cons]
    refine ⟨by omega, by omega, fun positive => ?_⟩
    rw [placed (by omega), added.2.2 positive]

theorem MessageBatch.toBlock_messageCount (batch : MessageBatch) (rebased : List Message) :
    (batch.toBlock rebased).messageCount = rebased.length :=
  (foldl_add rebased {}).1.trans (Nat.zero_add _)

theorem Compresses.messageCount (made : Compresses env block packed) :
    packed.messageCount = block.messageCount := by
  cases made <;> rfl

theorem Point.BlocksFit.move (moved : Move env event start p q) (flushes : event.mayFlush = true)
    (fit : p.BlocksFit env) : q.BlocksFit env := by
  have packed {block : Block} (held : block.messageCount ≤ env.settings.batchFlushMessageCount)
      {state : State} (support : state.batchingSupported = p.state.batchingSupported)
      (session : state.sessionEstablished = p.state.sessionEstablished)
      (blocks : state.packedMessagesToSend = p.state.packedMessagesToSend ++ [block]) :
      state.BlocksFit env := by
    rw [State.BlocksFit, support, session, blocks]
    refine fit.fit.imp_right (.imp_right fun small => ⟨small.1, fun other listed => ?_⟩)
    rcases mem_append.mp listed with earlier | last
    · exact small.2 other earlier
    · rw [mem_singleton.mp last]
      exact Nat.le_trans held small.1
  cases moved with
  | sends => exact ⟨fit.fit.imp_right (.imp_right fun small =>
    ⟨small.1, fun block listed => small.2 block (mem_of_mem_erase listed)⟩), fit.held⟩
  | aborts _ connected =>
    refine ⟨fit.fit.imp_right (.imp_left fun down => ?_), fit.held⟩
    exact Bool.eq_false_iff.mpr fun established => by simp [connected established] at down
  | restarts => exact ⟨.inr (.inl rfl), fit.held⟩
  | builds _ _ _ _ found _ limited =>
    refine ⟨fit.fit, fun block held => ?_⟩
    cases held
    rw [MessageBatch.toBlock_messageCount, MessageBatch.rebased_length found]
    exact limited
  | packs held => exact ⟨packed (fit.held _ held) rfl rfl rfl, nofun⟩
  | compresses held _ made =>
    exact ⟨packed (made.messageCount ▸ fit.held _ held) rfl rfl rfl, nofun⟩
  | posts | loses => exact ⟨fit.fit, nofun⟩
  | takes runs => rw [runs] at flushes; contradiction
  | configures answers => rw [answers] at flushes; contradiction
  | _ => exact ⟨fit.fit, fit.held⟩

theorem At.blocksFit (reached : At env event start p) (flushes : event.mayFlush = true)
    (fit : start.BlocksFit env) : p.BlocksFit env := by
  induction reached with
  | start => exact ⟨fit, nofun⟩
  | move _ moved ih => exact ih.move moved flushes

theorem State.BlocksFit.takes_top {block : Block} {front : OriginalMessage}
    {rest : List OriginalMessage} (fit : state.BlocksFit env)
    (ready : state.ReadyToSend env block front rest) (several : 1 < block.messageCount) :
    state.batchingSupported = true := by
  rcases fit with supported | down | small
  · exact supported
  · exact absurd (ready.established.symm.trans down) nofun
  · exact absurd (small.2 _ (PriorityQueue.top?_mem ready.topmost)) (by omega)

theorem Throws.not_flushing {after : State} (throws : Throws env event start p after)
    (reached : At env event start p) (quiet : FlushesOnlyQuietly env start event) :
    p.flushing = false := by
  rw [← Bool.not_eq_true]
  intro flushing
  have flushes := reached.mayFlush flushing
  have loud (sends : Sends env event start p) :
      (∀ payloads, env.encode env.settings.codec payloads ≠ none) ∧ start.BlocksFit env := by
    have inline := sends.inline flushing
    rcases quiet flushes with async | raw | loud
    · rw [inline.1] at async
      contradiction
    · exact absurd raw inline.2
    · exact loud
  cases throws with
  | refused sends _ ready unsupported several =>
    have supported := (reached.blocksFit flushes (loud sends).2).fit.takes_top ready several
    exact absurd (unsupported.symm.trans supported) nofun
  | uncoded sends _ _ fails =>
    rw [Environment.compresses, Bool.or_eq_false_iff] at fails
    exact (loud sends).1 _ (by simpa using fails.2)
  | rejected _ idle => rw [idle] at flushing; contradiction
  | called idle => rw [idle] at flushing; contradiction

/-! ## Conservation -/

def SessionEvent.reports : SessionEvent → List WriteAck
  | .readyToAccept => []
  | .acks reports => reports

def State.reported (state : State) : List WriteAck :=
  state.events.flatMap SessionEvent.reports

/-- The stages of the messages.  While the batch is flushed its messages wait already. -/
def Point.pipeline (p : Point) : Pipeline MessageRecord where
  accepted := p.state.accepted.map Accepted.record
  acked := p.state.acked
  sent := p.state.sentOriginalMessages.map OriginalMessage.toMessageRecord
  waiting := p.state.originalMessagesToSend.map OriginalMessage.toMessageRecord
  batch := if p.flushing then [] else p.state.currentBatch.messages.map Message.toRecord

/-- The messages are conserved, and the reports made so far and those still to be made belong
to different acknowledged messages. -/
structure Conserving (p : Point) : Prop where
  conserved : p.pipeline.Conserved
  reported : ((p.state.reported ++ p.reports).map WriteAck.id).Sublist
    (p.state.acked.map MessageRecord.id)

theorem State.reported_of_pushed {event : SessionEvent} {events : List SessionEvent}
    (pushed : Pushed state event events) :
    events.flatMap SessionEvent.reports = state.reported ∨
      events.flatMap SessionEvent.reports = state.reported ++ event.reports := by
  rw [Pushed] at pushed
  split at pushed
  · exact .inl (pushed ▸ rfl)
  · exact .inr (by rw [pushed, flatMap_append, flatMap_singleton]; rfl)

theorem attach_records (promise : Nat) (messages : List OriginalMessage) :
    (flush.attach promise messages).map OriginalMessage.toMessageRecord =
      messages.map OriginalMessage.toMessageRecord := by
  induction messages using flush.attach.induct with
  | case1 => rfl
  | case2 last => rfl
  | case3 message rest _ ih => simp [flush.attach, ih]

theorem withoutPromise_records (messages : List OriginalMessage) :
    (messages.map .withoutPromise).map OriginalMessage.toMessageRecord =
      messages.map OriginalMessage.toMessageRecord := by
  rw [map_map]
  rfl

theorem MessageBatch.rebased_records {batch : MessageBatch} {rebased : List Message}
    (found : batch.rebased = some rebased) :
    (rebased.map Message.toOriginal).map OriginalMessage.toMessageRecord =
      batch.messages.map Message.toRecord := by
  rw [map_map, ← rebaseDataRefs_toRecord found]
  rfl

theorem Conserving.move (conserving : Conserving p) (moved : Move env event start p q) : Conserving q := by
  have step {q : Point} (step : Pipeline.Step p.pipeline q.pipeline)
      (reported : q.state.reported ++ q.reports = p.state.reported ++ p.reports)
      (acked : q.state.acked = p.state.acked) : Conserving q :=
    ⟨step.conserved conserving.conserved, by rw [reported, acked]; exact conserving.reported⟩
  have stay {q : Point} (same : q.pipeline = p.pipeline)
      (reported : ((q.state.reported ++ q.reports).map WriteAck.id).Sublist
        ((p.state.reported ++ p.reports).map WriteAck.id)) : Conserving q :=
    ⟨same ▸ conserving.conserved, by
      rw [show q.state.acked = p.state.acked from congrArg Pipeline.acked same]
      exact reported.trans conserving.reported⟩
  cases moved with
  | sends sent =>
    refine step ?_ rfl rfl
    have taken := Pipeline.Step.send p.pipeline _ _ (by
      rw [Point.pipeline, sent.split, map_append])
    simpa [Point.pipeline] using taken
  | expires | aborts =>
    refine stay ?_ (.refl _)
    simp only [Point.pipeline, State.aborted, withoutPromise_records]
  | builds _ idle _ _ found =>
    refine step ?_ rfl rfl
    have flushed := Pipeline.Step.flush p.pipeline
    simp only [Point.pipeline, idle.2] at flushed
    simp only [Point.pipeline, idle.2, map_append, MessageBatch.rebased_records found]
    exact flushed
  | clears _ flushing => exact stay (by simp [Point.pipeline, flushing]) (.refl _)
  | attaches =>
    refine stay ?_ (.refl _)
    simp only [Point.pipeline, attach_records, Pipeline.mk.injEq, true_and, and_true]
    split
    · exact attach_records _ _
    · rfl
  | pushes _ pushed =>
    refine stay rfl ?_
    rcases State.reported_of_pushed pushed with same | same <;>
      simp [State.reported, same, SessionEvent.reports]
  | accepts _ _ idle =>
    refine step ?_ rfl rfl
    have accepted := Pipeline.Step.accept p.pipeline
    simpa [Point.pipeline, idle.2, MessageBatch.add] using accepted _
  | @acknowledges ack firstId _ _ released kept reports _ _ _ _ _ ids split _ reported =>
    refine ⟨?_, ?_⟩
    · have step := Pipeline.Step.acknowledge p.pipeline _ _ (by
        rw [Point.pipeline, split, map_append])
      exact step.conserved conserving.conserved
    · have ackedIds : (released.map OriginalMessage.toMessageRecord).map MessageRecord.id =
          List.range' firstId (max 1 (ackedMessageCount p.state firstId)) := by
        rw [map_map, ← ids]
        rfl
      have grown : (reports.map WriteAck.id).Sublist
          ((released.map OriginalMessage.toMessageRecord).map MessageRecord.id) := by
        rw [ackedIds, reported]
        exact List.range'_sublist_right.mpr (Nat.le_max_right _ _)
      simpa [State.reported] using conserving.reported.append grown
  | reports pushed =>
    refine stay rfl ?_
    rw [append_nil]
    rcases State.reported_of_pushed pushed with same | same
    · rw [State.reported, same, map_append]
      exact sublist_append_left _ _
    · rw [State.reported, same]
      rfl
  | restarts =>
    refine step ?_ rfl rfl
    have taken := Pipeline.Step.takeBack p.pipeline
    simpa [Point.pipeline] using taken
  | _ => exact { conserving with }

theorem Conserving.thrown {after : State} (conserving : Conserving p) (cleared : p.flushing = false)
    (throws : Throws env event start p after) : Conserving { state := after } := by
  have idle : Conserving { state := p.state } := by
    refine ⟨by simpa [Point.pipeline, cleared] using conserving.conserved, ?_⟩
    rw [append_nil]
    exact ((sublist_append_left _ _).map _).trans conserving.reported
  cases throws <;> exact { idle with }

theorem conserving_of_reaches (reached : Reaches env (FlushesOnlyQuietly env) state) :
    Conserving { state } := by
  refine (reached.carried (fun state => Conserving { state }) (fun _ _ => Conserving) (fun _ => True)
    ⟨rfl, .slnil⟩ ?_).2
  exact fun start event _ conserving quiet => {
    enters := { conserving with }
    moves := fun _ moved conserving => conserving.move moved
    leaves := fun conserving => conserving
    thrown := fun reached conserving throws =>
      conserving.thrown (throws.not_flushing reached quiet) throws
    fails := fun _ _ => trivial }

def State.held (state : State) : List MessageRecord :=
  state.sentOriginalMessages.map OriginalMessage.toMessageRecord ++
    state.originalMessagesToSend.map OriginalMessage.toMessageRecord ++
    state.currentBatch.messages.map Message.toRecord

/-- The messages the session holds are the accepted ones that are not acknowledged,
and each accepted message is reported acknowledged at most once. -/
theorem held_messages_conserved (env : Environment) (state : State)
    (reached : Reaches env (FlushesOnlyQuietly env) state) :
    state.held = (state.accepted.map Accepted.record).drop state.acked.length ∧
      state.acked <+: state.accepted.map Accepted.record ∧
      (state.reported.map WriteAck.id).Sublist (state.acked.map MessageRecord.id) := by
  have conserving := conserving_of_reaches reached
  have together : state.acked ++ state.held = state.accepted.map Accepted.record := by
    have conserved := conserving.conserved
    simp only [Pipeline.Conserved, Point.pipeline] at conserved
    simpa [State.held] using conserved
  refine ⟨?_, ⟨state.held, together⟩, by simpa using conserving.reported⟩
  rw [← together, drop_left]

def asynchronousSession : Environment where
  settings := { directWriteToPartition := false }

/-- Two messages are written, their blocks are compressed out of order, and the
first is acknowledged. -/
def outOfOrderEvents : List Event :=
  [.connect false true, .serverMessage 1 (.initResponse { lastSeqNo := 0 }),
    .write 1 { data := [1] }, .write 2 { data := [2] }, .compressed 1, .compressed 0,
    .scheduledSend, .serverMessage 1 (.writeResponse [{ seqNo := 1, status := .written 0 }])]

theorem held_messages_conserved_out_of_order :
    ∃ state, Reaches asynchronousSession (FlushesOnlyQuietly asynchronousSession) state ∧
      (state.accepted.length = 2 ∧ state.reported.length = 1) ∧
      state.held = (state.accepted.map Accepted.record).drop state.acked.length := by
  obtain ⟨state, reached, lengths⟩ : ∃ state,
      Reaches asynchronousSession (FlushesOnlyQuietly asynchronousSession) state ∧
      state.accepted.length = 2 ∧ state.reported.length = 1 :=
    exists_reachable outOfOrderEvents ⟨permitted_of_always fun _ _ _ => .inl rfl, by decide +kernel⟩
  exact ⟨state, reached, lengths, (held_messages_conserved _ state reached).1⟩

def synchronousSession : Environment where
  settings := {
    codec := .gzip, compressionExecutorIsAsync := false, batchFlushMessageCount := 2
    directWriteToPartition := false }

/-- Two messages are written on a connection that does not take batches: sending
their block throws before the batch is cleared. -/
def refusedBatchEvents : List Event :=
  [.connect false true,
    .serverMessage 1 (.initResponse { lastSeqNo := 0, isBatchingSupported := false }),
    .write 1 { data := [] }, .write 2 { data := [] }]

theorem refused_batch_duplicates_messages :
    ∃ state, Reaches synchronousSession (fun _ _ => True) state ∧
      state.held ≠ (state.accepted.map Accepted.record).drop state.acked.length :=
  exists_reachable refusedBatchEvents (by decide +kernel)

end YdbSdk.Topic.WriteSession
