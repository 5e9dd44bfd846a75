import YdbSdk.Topic.WriteSession.Alignment

namespace YdbSdk.Topic.WriteSession

open YdbSdk.Control YdbSdk.Data List

/-! # Messages are sent in acceptance order

Every move keeps blocks and original messages aligned, so what is on the wire of one
connection is a run of the accepted messages that starts with the oldest one not
acknowledged when the connection was opened.
-/

variable {env : Environment} {event : Event} {start state : State} {p q : Point} {block : Block}

theorem MessageBatch.toBlock_offset (batch : MessageBatch) (first : Message) (rest : List Message) :
    (batch.toBlock (first :: rest)).offset = first.id := by
  have added : (({} : Block).add first).offset = first.id ∧ (({} : Block).add first).messageCount = 1 := by
    unfold Block.add
    cases first.codec <;> exact ⟨rfl, rfl⟩
  exact ((foldl_add rest _).2.2 (by rw [added.2]; exact Nat.zero_lt_one)).trans added.1

theorem MessageBatch.toBlock_covers (batch : MessageBatch) {rebased : List Message}
    (nonempty : rebased ≠ []) :
    SpansCover [(batch.toBlock rebased).span] (rebased.map Message.toOriginal) := by
  cases rebased with
  | nil => contradiction
  | cons first rest =>
    have counted : (batch.toBlock (first :: rest)).span.2 = (rest.map Message.toOriginal).length + 1 := by
      rw [length_map]
      exact batch.toBlock_messageCount (first :: rest)
    have placed : (batch.toBlock (first :: rest)).span.1 = first.id := batch.toBlock_offset first rest
    have single : Covers Prod.fst Prod.snd [(batch.toBlock (first :: rest)).span]
        ((batch.toBlock (first :: rest)).span.1 ::
          (rest.map Message.toOriginal).map (fun message => message.id)) :=
      .single (by rw [length_map]; exact counted)
    rw [placed] at single
    exact single

theorem Ordered.build (ordered : Ordered p) (conserved : p.pipeline.Conserved)
    (idle : p.block = none ∧ p.flushing = false) (waiting : p.state.currentBatch.empty = false)
    {rebased : List Message} (found : p.state.currentBatch.rebased = some rebased) :
    Ordered { p with
      block := some (p.state.currentBatch.toBlock rebased)
      flushing := true
      state := { p.state with
        originalMessagesToSend := p.state.originalMessagesToSend ++ rebased.map Message.toOriginal
        currentBatch := p.state.currentBatch.emptied rebased } } := by
  have nonempty : rebased ≠ [] := by
    rintro rfl
    have empty : p.state.currentBatch.messages = [] :=
      length_eq_zero_iff.mp (MessageBatch.rebased_length found).symm
    simp [MessageBatch.empty, empty, ordered.sized idle.2 empty] at waiting
  obtain ⟨order, orderCovers, among⟩ := ordered.waitingCovered
  have covers := MessageBatch.toBlock_covers p.state.currentBatch nonempty
  refine {
    __ := ordered
    within := ?_
    waitingCovered := ⟨order ++ [(p.state.currentBatch.toBlock rebased).span], ?_, ?_⟩
    inStep := ?_
    sized := by simp }
  · have all : p.state.acked ++ (p.state.sentOriginalMessages.map OriginalMessage.toMessageRecord ++
        (p.state.originalMessagesToSend ++ rebased.map Message.toOriginal).map
          OriginalMessage.toMessageRecord) = p.state.records := by
      rw [map_append, MessageBatch.rebased_records found]
      simpa [Pipeline.Conserved, Point.pipeline, State.records, idle.2] using conserved
    exact all ▸ prefix_rfl
  · rw [SpansCover, map_append]
    exact orderCovers.append covers
  · have grown : (p.blocks.map Block.span).Subperm order := among
    rw [Point.blocks, idle.1] at grown
    exact ((subperm_cons _).mpr grown).trans (perm_append_singleton _ _).symm.subperm
  · intro running established
    refine (ordered.inStep running established).imp id ?_
    rintro ⟨⟨_, unsupported, other, member, several, first⟩, nothing⟩
    refine ⟨⟨established, unsupported, other, member, several, ?_⟩, nothing⟩
    rw [map_append, List.head?_append, first]
    rfl

/-! ## Numbers and acceptance -/

theorem State.Numbered.of_seqNo {before after : State}
    (numbered : before.Numbered message)
    (kept : ∀ id seqNo, before.seqNo? id = some seqNo → after.seqNo? id = some seqNo) :
    after.Numbered message := by
  obtain ⟨last, ends, number⟩ := numbered
  exact ⟨last, ends, kept _ _ number⟩

theorem State.seqNo?_or {id : Nat} (known : state.seqNo? id = some seqNo) (mode : Option Bool)
    (initSeqNo : Option Nat) :
    ({ state with
      autoSeqNoMode := state.autoSeqNoMode.or mode
      initSeqNo := state.initSeqNo.or initSeqNo } : State).seqNo? id = some seqNo := by
  unfold State.seqNo? at known ⊢
  cases auto : state.autoSeqNoMode <;> cases init : state.initSeqNo <;> simp_all

section

variable (ordered : Ordered p)
include ordered

theorem Ordered.takeNumber (automatic : Bool) : Ordered { p with
      opening := false
      state := { p.state with
        nextId := p.state.nextId + 1
        autoSeqNoMode := p.state.autoSeqNoMode.or (some automatic) } } where
  __ := ordered
  numbered := by
    intro sent member message within
    refine (ordered.numbered sent member message within).of_seqNo (fun id seqNo known => ?_)
    have kept := State.seqNo?_or known (some automatic) none
    rw [Option.or_none] at kept
    exact kept
  counted := by
    intro notManual message member
    refine Nat.le_succ_of_le (ordered.counted (fun manual => notManual ?_) message member)
    simp [manual]

theorem Ordered.fix (notAuto : p.state.autoSeqNoMode ≠ some true) :
    Ordered { p with state := { p.state with autoSeqNoMode := some false } } where
  __ := ordered
  numbered := by
    -- The mode is either manual already, or not known and no message has a number.
    have manual : p.state.autoSeqNoMode.or (some false) = some false := by
      cases mode : p.state.autoSeqNoMode with
      | none => rfl
      | some auto => cases auto <;> simp_all
    have kept := (ordered.takeNumber false).numbered
    rw [manual] at kept
    exact kept
  counted := fun notManual => absurd rfl notManual

theorem Ordered.accept {message : Accepted} {batch : MessageBatch}
    (later : ∀ earlier ∈ p.state.accepted, earlier.record.id < message.record.id)
    (counted : p.state.autoSeqNoMode ≠ some false → message.record.id ≤ p.state.nextId)
    (nonempty : batch.messages ≠ []) :
    Ordered { p with state := { p.state with
      accepted := p.state.accepted ++ [message], currentBatch := batch } } := by
  have records : (p.state.accepted ++ [message]).map Accepted.record =
      p.state.records ++ [message.record] := by
    simp [State.records]
  have short : p.state.ackedAtConnect ≤ p.state.records.length := by
    have length := ordered.within.length_le
    rw [length_append] at length
    exact Nat.le_trans ordered.base (by omega)
  have taken : (p.state.records ++ [message.record]).take p.state.ackedAtConnect =
      p.state.records.take p.state.ackedAtConnect := take_append_of_le_length short
  exact {
    __ := ordered
    increasing := by
      rw [State.records, records, map_append, pairwise_append]
      refine ⟨ordered.increasing, pairwise_singleton _ _, ?_⟩
      intro first member last only
      rw [map_singleton, mem_singleton] at only
      simp only [State.records, map_map, mem_map] at member
      obtain ⟨earlier, accepted, rfl⟩ := member
      rw [only]
      exact later earlier accepted
    within := by
      rw [State.records, records]
      exact ordered.within.trans (prefix_append _ _)
    behind := by
      rw [State.records, records, taken]
      exact ordered.behind.trans (prefix_append _ _)
    inStep := by
      intro running established
      refine (ordered.inStep running established).imp (fun inStep => ?_) id
      rw [State.InStep, State.records, records, taken]
      exact inStep
    counted := by
      intro notManual accepted member
      rcases mem_append.mp member with earlier | last
      · exact ordered.counted notManual accepted earlier
      · rw [mem_singleton.mp last]
        exact counted notManual
    sized := fun _ empty => absurd empty nonempty }

/-! ## Acknowledgements and connections -/

theorem Ordered.pop {firstId : Nat} {released kept : List OriginalMessage}
    (ids : released.map (fun message => message.id) =
      .range' firstId (max 1 (ackedMessageCount p.state firstId)))
    (split : p.state.sentOriginalMessages = released ++ kept) :
    Ordered { p with state := { p.state with
      sentPackedMessage := p.state.packedAfterAck firstId
      sentOriginalMessages := kept
      acked := p.state.acked ++ released.map OriginalMessage.toMessageRecord } } := by
  have counted : released.length = max 1 (ackedMessageCount p.state firstId) := by
    simpa using congrArg List.length ids
  have sentIds : p.state.sentOriginalMessages.map (fun message => message.id) =
      released.map (fun message => message.id) ++ kept.map (fun message => message.id) := by
    rw [split, map_append]
  have front : (p.state.sentOriginalMessages.map (fun message => message.id)).head? = some firstId := by
    rw [sentIds, ids, show max 1 (ackedMessageCount p.state firstId) =
      (max 1 (ackedMessageCount p.state firstId) - 1) + 1 by omega]
    rfl
  have sentNonempty (empty : p.state.sentOriginalMessages = []) : False := by
    rw [empty] at front
    contradiction
  have keptCovered : SpansCover ((p.state.packedAfterAck firstId).map Block.span) kept := by
    have covered := ordered.sentCovered
    cases packed : p.state.sentPackedMessage with
    | nil =>
      rw [packed] at covered
      exact (sentNonempty (map_eq_nil_iff.mp covered.eq_nil)).elim
    | cons block others =>
      rw [packed] at covered
      obtain ⟨positive, _, head, _, remaining⟩ := covered.uncons
      have here : block.offset = firstId := Option.some.inj (head.symm.trans front)
      have whole : (released.map (fun message => message.id)).length = block.span.2 := by
        rw [length_map, counted, ackedMessageCount, packed]
        simp only [if_pos here]
        exact Nat.max_eq_right positive
      rw [sentIds, drop_left' whole] at remaining
      rw [State.packedAfterAck, packed]
      simp only [if_pos here]
      exact remaining
  exact {
    __ := ordered
    within := by
      have within := ordered.within
      rw [split, map_append, append_assoc, ← append_assoc p.state.acked] at within
      exact within
    sentCovered := keptCovered
    base := Nat.le_trans ordered.base (by simp)
    inStep := by
      intro running established
      refine (ordered.inStep running established).imp (fun inStep => ?_) id
      rw [State.InStep, split, map_append, ← append_assoc p.state.acked] at inStep
      exact inStep
    down := fun running down => (sentNonempty (ordered.down running down).1).elim
    opened := fun running down => (sentNonempty (ordered.down running down).1).elim }

/-- An init response says what is known of the numbers.  The session is established on a
connection that has just been opened, or connects once more. -/
theorem Ordered.configure (connected : p.state.connectPending = false)
    (fresh : p.state.sessionEstablished = false) (supported : Bool) (initSeqNo : Nat)
    {established pending : Bool} (connects : established = p.state.sessionEstablished ∧ pending = true ∨
      established = true ∧ pending = p.state.connectPending) :
    Ordered { p with state := { p.state with
      batchingSupported := supported, initSeqNo := p.state.initSeqNo.or (some initSeqNo)
      sessionEstablished := established, connectPending := pending } } where
  __ := ordered
  numbered := by
    intro sent member message within
    refine (ordered.numbered sent member message within).of_seqNo (fun id seqNo known => ?_)
    have kept := State.seqNo?_or known none (some initSeqNo)
    rw [Option.or_none] at kept
    exact kept
  inStep := by
    intro running _
    left
    obtain ⟨empty, nothing⟩ := ordered.down running fresh
    obtain ⟨noWire, base⟩ := ordered.opened running fresh connected
    have acked : p.state.records.take p.state.acked.length = p.state.acked :=
      (prefix_iff_eq_take.mp ((prefix_append _ _).trans ordered.within)).symm
    have inStep : p.state.records.take p.state.ackedAtConnect ++ p.state.wire ++ p.request.originals =
        p.state.acked ++ p.state.sentOriginalMessages.map OriginalMessage.toMessageRecord := by
      rw [noWire, nothing, base, acked, empty, map_nil, append_nil]
    exact inStep
  down := fun running _ => ordered.down running fresh
  opened := fun running _ _ => ordered.opened running fresh connected
  disconnected := by
    intro _ waits
    rcases connects with ⟨same, _⟩ | ⟨_, same⟩
    · exact same.trans fresh
    · exact absurd (waits.symm.trans (same.trans connected)) Bool.noConfusion

theorem Ordered.reset (idle : p.request = {}) : Ordered { p with state := { p.state with
      sessionEstablished := false, connectPending := true
      packedMessagesToSend := p.state.packedMessagesToSend ++ p.state.sentPackedMessage
      sentPackedMessage := []
      originalMessagesToSend := p.state.sentOriginalMessages ++ p.state.originalMessagesToSend
      sentOriginalMessages := [] } } where
  __ := ordered
  within := by
    have within := ordered.within
    rw [← map_append] at within
    exact within
  sentCovered := .nil
  waitingCovered := by
    obtain ⟨order, covers, among⟩ := ordered.waitingCovered
    refine ⟨p.state.sentPackedMessage.map Block.span ++ order, ?_, ?_⟩
    · rw [SpansCover, map_append]
      exact ordered.sentCovered.append covers
    · have rearranged : (p.block.toList ++ (p.state.packedMessagesToSend ++ p.state.sentPackedMessage ++
          p.state.compressing)).Perm (p.state.sentPackedMessage ++ p.blocks) := by
        rw [append_assoc]
        exact ((perm_append_comm_assoc _ _ _).append_left _).trans
          (perm_append_comm_assoc _ _ _)
      refine (rearranged.map Block.span).subperm.trans ?_
      rw [map_append]
      exact (subperm_append_left _).mpr among
  inStep := fun _ established => absurd established Bool.noConfusion
  down := fun _ _ => ⟨rfl, by rw [idle]; rfl⟩
  opened := fun _ _ connected => absurd connected Bool.noConfusion
  disconnected := fun _ _ => rfl

theorem Ordered.connect (running : p.state.aborting = false)
    (waiting : p.state.connectPending = true) (pending : Bool) :
    Ordered { p with state := { p.state with
      connectionGeneration := p.state.connectionGeneration + 1, connectPending := pending
      requests := [], ackedAtConnect := p.state.acked.length } } where
  __ := ordered
  base := Nat.le_refl _
  behind := by
    have taken : p.state.records.take p.state.acked.length ++ [] <+: p.state.records := by
      rw [append_nil]
      exact take_prefix _ _
    exact taken
  numbered := fun sent member => ordered.numbered sent (mem_append_right _ member)
  inStep := fun _ established =>
    absurd ((ordered.disconnected running waiting).symm.trans established) Bool.noConfusion
  opened := fun _ _ _ => ⟨rfl, rfl⟩
  disconnected := fun _ _ => ordered.disconnected running waiting

/-! ## Runs -/

/-- The events a run may contain: flushes where compression cannot throw too early,
user numbers that increase, and an init response only as the answer to a connection
that was opened and on which the session is not established yet. -/
structure OrderlyEvent (env : Environment) (state : State) (event : Event) : Prop where
  quiet : FlushesOnlyQuietly env state event
  increasing : ∀ now message given, event = .write now message → message.seqNo = some given →
    ∀ earlier ∈ state.accepted, earlier.record.id < given
  handshake : ∀ response,
    event = .serverMessage state.connectionGeneration (.initResponse response) →
    state.connectPending = false ∧ state.sessionEstablished = false

omit ordered in
theorem At.accepted_of_opening (reached : At env event start p) (opening : p.opening = true) :
    p.state.accepted = start.accepted := by
  induction reached with
  | start => rfl
  | move _ moved ih =>
    cases moved with
    | subscribes _ _ opened => exact ih opened
    | aborts | quits | numbers | accepts => contradiction
    | _ => exact ih opening

omit ordered in
theorem Compresses.span (made : Compresses env block packed) :
    packed.span = block.span := by
  cases made <;> rfl

theorem Ordered.number_later {id : Nat}
    (increasing : ∀ given, seqNo = some given → ∀ earlier ∈ p.state.accepted, earlier.record.id < given)
    (numbered : NumberTaken p.state.autoSeqNoMode p.state.nextId seqNo id) :
    (∀ earlier ∈ p.state.accepted, earlier.record.id < id) ∧
      (p.state.autoSeqNoMode.or (some seqNo.isNone) ≠ some false → id ≤ p.state.nextId + 1) := by
  rcases numbered with ⟨given, manual⟩ | ⟨_, rfl, automatic⟩
  · exact ⟨increasing id given, fun notManual => absurd manual notManual⟩
  · refine ⟨fun earlier member => Nat.lt_succ_of_le ?_, fun _ => Nat.le_refl _⟩
    refine ordered.counted (fun manual => ?_) earlier member
    simp [manual] at automatic

theorem Ordered.move (conserved : p.pipeline.Conserved)
    (reached : At env event start p) (orderly : OrderlyEvent env start event)
    (moved : Move env event start p q) : Ordered q := by
  cases moved with
  | sends sent => exact ordered.send sent
  | writes running => exact ordered.write running _ _
  | drops aborting => exact ordered.giveUp fun running => by rw [aborting] at running; contradiction
  | expires => exact ordered.abort _ _ _ _ _
  | aborts => exact ordered.abort _ _ _ _ _
  | builds _ idle _ waiting found => exact { ordered.build conserved idle waiting found with }
  | packs held => exact ordered.pack held rfl
  | compresses held _ made => exact { ordered.pack held made.span with }
  | posts held => exact ordered.post held
  | loses => exact ordered.lose
  | clears => exact { ordered with sized := fun _ _ => rfl }
  | attaches =>
    refine { ordered.relabel ?_ (attach_records p.state.nextFlushPromise _) with }
    split
    · exact attach_records _ _
    · rfl
  | takes _ _ idle found => exact ordered.take idle.1 found
  | numbers => exact ordered.takeNumber _
  | fixes notAuto => exact ordered.fix notAuto
  | accepts written opening _ numbered =>
    have increasing := fun given => orderly.increasing _ _ given written
    rw [← reached.accepted_of_opening opening] at increasing
    obtain ⟨later, counted⟩ := ordered.number_later increasing numbered
    refine { (ordered.takeNumber _).accept (by exact later) (by exact counted) ?_ with }
    simp [MessageBatch.add]
  | acknowledges _ _ ids split => exact { ordered.pop ids split with }
  | configures answers untouched connects =>
    obtain ⟨connected, fresh⟩ := orderly.handshake _ answers
    exact { ordered.configure (untouched.2.trans connected) (untouched.1.trans fresh) _ _ connects with }
  | restarts _ idle => exact { ordered.reset idle with }
  | connects running waiting => exact ordered.connect running waiting _
  | _ => exact { ordered with }

theorem Ordered.thrown {after : State} (cleared : p.flushing = false)
    (throws : Throws env event start p after) : Ordered { state := after } := by
  cases throws with
  | refused _ packed ready unsupported several =>
    have refused : p.state.Refused :=
      ⟨ready.established, unsupported, _, ready.packed, several, ready.first⟩
    exact { (ordered.giveUp fun _ => refused).lose with sized := fun _ => ordered.sized cleared }
  | uncoded _ _ empty =>
    obtain ⟨state, _, request, _, flushing⟩ := p
    subst empty cleared
    exact { ordered.lose with }
  | rejected _ idle => rw [idle] at ordered; exact ordered
  | called idle => rw [idle] at ordered; exact { ordered with }

end

theorem ordered_start : Ordered { state := {} } := by
  refine ⟨.nil, ⟨[], rfl⟩, .nil, ⟨[], .nil, by simp [Point.blocks]⟩, Nat.le_refl _, ⟨[], rfl⟩, ?_,
    fun _ established => absurd established Bool.noConfusion, fun _ _ => ⟨rfl, rfl⟩,
    fun _ _ connected => absurd connected Bool.noConfusion, fun _ _ => rfl, nofun, fun _ _ => rfl⟩
  intro sent member message within
  have empty : sent = {} := by simpa using member
  rw [empty] at within
  contradiction

theorem ordered_carries (event : Event) (ordered : Conserving { state } ∧ Ordered { state })
    (orderly : OrderlyEvent env state event) :
    Carries env event state (fun p => Conserving p ∧ Ordered p)
      (fun state => Conserving { state } ∧ Ordered { state })
      (fun assertion => assertion.relatesQueues = false) where
  enters := ⟨{ ordered.1 with }, { ordered.2 with }⟩
  moves := fun reached moved inside =>
    ⟨inside.1.move moved, inside.2.move inside.1.conserved reached orderly moved⟩
  leaves := id
  thrown := fun reached inside throws =>
    have cleared := throws.not_flushing reached orderly.quiet
    ⟨inside.1.thrown cleared throws, inside.2.thrown cleared throws⟩
  fails := fun inside => inside.2.fails

/-- The messages on the wire of a connection are the accepted messages in acceptance
order, from the oldest one on that was not acknowledged when the connection was
opened, under their numbers; and no assertion on the relation of the queues fails. -/
theorem wire_in_acceptance_order (env : Environment) (state : State)
    (reached : Reaches env (OrderlyEvent env) state) :
    state.wire <+: state.records.drop state.ackedAtConnect ∧
      (∀ request ∈ state.requests, ∀ message ∈ request.messages, state.Numbered message) ∧
      ∀ event assertion, OrderlyEvent env state event →
        (react env event).step state = .error assertion → assertion.relatesQueues = false := by
  obtain ⟨sound, inside⟩ := reached.carried _ (fun _ _ p => Conserving p ∧ Ordered p) _
    ⟨⟨rfl, .slnil⟩, ordered_start⟩ (fun _ event _ => ordered_carries event)
  refine ⟨?_, ?_, ?_⟩
  · obtain ⟨rest, together⟩ := inside.2.behind
    refine ⟨rest, (append_right_inj (state.records.take state.ackedAtConnect)).mp ?_⟩
    rw [← append_assoc, together, take_append_drop]
  · exact fun request member => inside.2.numbered request (mem_append_left _ member)
  · intro event assertion orderly failed
    have apart := Code.wp_step_error ((ordered_carries event inside orderly).wp sound) failed
    exact apart

/-- The check that events are orderly, for a session that compresses on another thread
and numbers its messages itself. -/
def orderlyCheck (state : State) : Event → Bool
  | .write _ message => message.seqNo.isNone
  | .serverMessage _ (.initResponse _) => !state.connectPending && !state.sessionEstablished
  | _ => true

theorem orderlyEvent_of_check (state : State) (event : Event)
    (passed : orderlyCheck state event = true) : OrderlyEvent asynchronousSession state event where
  quiet := fun _ => .inl rfl
  increasing := by
    rintro now message given rfl numbered
    simp [orderlyCheck, numbered] at passed
  handshake := by
    rintro response rfl
    simpa [orderlyCheck] using passed

/-- After the first acknowledgement the connection breaks, and a new one is opened. -/
def reconnectEvents : List Event :=
  outOfOrderEvents ++ [.connectionError (.other 1) true false, .connect false true,
    .serverMessage 2 (.initResponse { lastSeqNo := 1 })]

theorem wire_in_acceptance_order_after_reconnect :
    ∃ state, Reaches asynchronousSession (OrderlyEvent asynchronousSession) state ∧
      state.wire.map MessageRecord.id = [2] ∧
      state.wire <+: state.records.drop state.ackedAtConnect := by
  obtain ⟨state, reached, sent⟩ : ∃ state, Reaches asynchronousSession (OrderlyEvent asynchronousSession)
      state ∧ state.wire.map MessageRecord.id = [2] :=
    exists_reachable reconnectEvents
      ⟨permitted_of_checked orderlyEvent_of_check (by decide +kernel), by decide +kernel⟩
  exact ⟨state, reached, sent, (wire_in_acceptance_order _ state reached).1⟩

/-- The refused batch is still in the current batch when the session reconnects to a
server that takes batches: its messages are sent twice. -/
def resentBatchEvents : List Event :=
  refusedBatchEvents ++ [.connectionError (.other 1) true false, .connect false true,
    .serverMessage 2 (.initResponse { lastSeqNo := 0, isBatchingSupported := true }),
    .wakeUp 3000000]

theorem refused_batch_sent_twice :
    ∃ state, Reaches synchronousSession (fun _ _ => True) state ∧
      ¬ state.wire <+: state.records.drop state.ackedAtConnect :=
  exists_reachable resentBatchEvents (by decide +kernel)

end YdbSdk.Topic.WriteSession
