import YdbSdk.Topic.WriteSession.Conservation
import YdbSdk.Data.Cover

namespace YdbSdk.Topic.WriteSession

open YdbSdk.Control YdbSdk.Data List

/-! # Packed blocks and original messages stay aligned

Blocks are packed in any order, but each one covers a run of the original messages,
and the runs follow each other without a gap.  So the block that may be sent next is
the one that covers the front of the waiting messages.
-/

variable {env : Environment} {event : Event} {start state : State} {p : Point} {block : Block}

/-- The number a block starts with and how many messages it covers. -/
def Block.span (block : Block) : Nat × Nat := (block.offset, block.messageCount)

/-- The spans cover the messages, one run after the other. -/
abbrev SpansCover (spans : List (Nat × Nat)) (messages : List OriginalMessage) : Prop :=
  Covers Prod.fst Prod.snd spans (messages.map (fun message => message.id))

def WriteRequest.originals (request : WriteRequest) : List MessageRecord :=
  request.messages.flatMap MessageData.originals

def State.wire (state : State) : List MessageRecord :=
  state.requests.flatMap WriteRequest.originals

def State.records (state : State) : List MessageRecord := state.accepted.map Accepted.record

def State.Refused (state : State) : Prop :=
  state.sessionEstablished = true ∧ state.batchingSupported = false ∧
    ∃ block ∈ state.packedMessagesToSend, 1 < block.messageCount ∧
      (state.originalMessagesToSend.map (fun message => message.id)).head? = some block.offset

/-- What was put on the wire, and then the `pending` messages of a request, are the
accepted messages from the oldest one on that was not acknowledged when the
connection was opened. -/
def State.InStep (pending : List MessageRecord) (state : State) : Prop :=
  state.records.take state.ackedAtConnect ++ state.wire ++ pending =
    state.acked ++ state.sentOriginalMessages.map OriginalMessage.toMessageRecord

/-- The message has the number of the last message it carries. -/
def State.Numbered (state : State) (message : MessageData) : Prop :=
  ∃ last, message.originals.getLast? = some last ∧ state.seqNo? last.id = some message.seqNo

def Point.blocks (p : Point) : List Block :=
  p.block.toList ++ (p.state.packedMessagesToSend ++ p.state.compressing)

/-- The blocks, the original messages and the wire fit together, also while a request
is being filled. -/
structure Ordered (p : Point) : Prop where
  increasing : (p.state.records.map MessageRecord.id).Pairwise (· < ·)
  within : p.state.acked ++ (p.state.sentOriginalMessages.map OriginalMessage.toMessageRecord ++
    p.state.originalMessagesToSend.map OriginalMessage.toMessageRecord) <+: p.state.records
  sentCovered : SpansCover (p.state.sentPackedMessage.map Block.span) p.state.sentOriginalMessages
  waitingCovered : ∃ order, SpansCover order p.state.originalMessagesToSend ∧
    (p.blocks.map Block.span).Subperm order
  base : p.state.ackedAtConnect ≤ p.state.acked.length
  behind : p.state.records.take p.state.ackedAtConnect ++ p.state.wire <+: p.state.records
  numbered : ∀ sent ∈ p.state.requests ++ [p.request], ∀ message ∈ sent.messages,
    p.state.Numbered message
  inStep : p.state.aborting = false → p.state.sessionEstablished = true →
    p.state.InStep p.request.originals ∨ p.state.Refused ∧ p.request.originals = []
  down : p.state.aborting = false → p.state.sessionEstablished = false →
    p.state.sentOriginalMessages = [] ∧ p.request.originals = []
  opened : p.state.aborting = false → p.state.sessionEstablished = false →
    p.state.connectPending = false →
    p.state.wire = [] ∧ p.state.ackedAtConnect = p.state.acked.length
  disconnected : p.state.aborting = false → p.state.connectPending = true →
    p.state.sessionEstablished = false
  /-- Automatic numbers do not exceed the counter they are taken from. -/
  counted : p.state.autoSeqNoMode ≠ some false →
    ∀ message ∈ p.state.accepted, message.record.id ≤ p.state.nextId
  /-- A batch without messages has no size. -/
  sized : p.flushing = false → p.state.currentBatch.messages = [] → p.state.currentBatch.currentSize = 0

/-! ## The next block -/

theorem Ordered.waiting_increasing (ordered : Ordered p) :
    (p.state.originalMessagesToSend.map (fun message => message.id)).Pairwise (· < ·) := by
  have part : (p.state.originalMessagesToSend.map OriginalMessage.toMessageRecord).Sublist
      p.state.records :=
    ((sublist_append_right _ _).trans (sublist_append_right _ _)).trans
      ordered.within.sublist
  have increasing := ordered.increasing.sublist (part.map MessageRecord.id)
  rwa [map_map] at increasing

theorem Ordered.waiting_distinct (ordered : Ordered p) :
    (p.state.originalMessagesToSend.map (fun message => message.id)).Nodup :=
  ordered.waiting_increasing.imp (fun less => Nat.ne_of_lt less)

theorem packed_mem (among : (p.blocks.map Block.span).Subperm order)
    (packed : block ∈ p.state.packedMessagesToSend) : block.span ∈ order :=
  among.subset (mem_map_of_mem (mem_append_right _ (mem_append_left _ packed)))

/-- The only packed block that starts with the next message is the one that covers
the front of the waiting messages. -/
theorem Ordered.front_block (ordered : Ordered p) (packed : block ∈ p.state.packedMessagesToSend)
    (first : (p.state.originalMessagesToSend.map (fun message => message.id)).head? =
      some block.offset) :
    ∃ rest, SpansCover (block.span :: rest) p.state.originalMessagesToSend ∧
      (p.blocks.map Block.span).Subperm (block.span :: rest) := by
  obtain ⟨order, covers, among⟩ := ordered.waitingCovered
  obtain ⟨rest, rfl⟩ := covers.head_of_start ordered.waiting_distinct (packed_mem among packed) first
  exact ⟨rest, covers, among⟩

theorem Ordered.front_unique (ordered : Ordered p)
    (packed : block ∈ p.state.packedMessagesToSend)
    (otherPacked : other ∈ p.state.packedMessagesToSend)
    (first : (p.state.originalMessagesToSend.map (fun message => message.id)).head? =
      some block.offset)
    (otherFirst : (p.state.originalMessagesToSend.map (fun message => message.id)).head? =
      some other.offset) : other.messageCount = block.messageCount := by
  obtain ⟨rest, covers, among⟩ := ordered.front_block packed first
  obtain ⟨others, same⟩ := covers.head_of_start ordered.waiting_distinct
    (packed_mem among otherPacked) otherFirst
  exact congrArg Prod.snd (List.cons.inj same).1.symm

section Ready

variable {front : OriginalMessage} {rest : List OriginalMessage}
  (ready : p.state.ReadyToSend env block front rest)

include ready

theorem State.ReadyToSend.packed : block ∈ p.state.packedMessagesToSend :=
  PriorityQueue.top?_mem ready.topmost

theorem State.ReadyToSend.first :
    (p.state.originalMessagesToSend.map (fun message => message.id)).head? = some block.offset := by
  simp [ready.waiting, ready.placed]

theorem Ordered.front_count (ordered : Ordered p) :
    0 < block.messageCount ∧ block.messageCount ≤ p.state.originalMessagesToSend.length := by
  obtain ⟨_, covers, _⟩ := ordered.front_block ready.packed ready.first
  obtain ⟨positive, enough, _⟩ := covers.uncons
  rw [length_map] at enough
  exact ⟨positive, enough⟩

end Ready

variable (ordered : Ordered p)
include ordered

theorem Ordered.ready
    (unready : p.state.Unready env assertion) : False := by
  obtain ⟨block, topmost, failure⟩ := unready
  obtain ⟨order, covers, among⟩ := ordered.waitingCovered
  have member : block.offset ∈ p.state.originalMessagesToSend.map (fun message => message.id) :=
    covers.start_mem (packed_mem among (PriorityQueue.top?_mem topmost))
  rcases failure with ⟨_, empty⟩ | ⟨_, front, rest, waiting, before⟩
  · rw [empty] at member
    contradiction
  · have increasing := ordered.waiting_increasing
    rw [waiting, map_cons, pairwise_cons] at increasing
    rw [waiting] at member
    rcases mem_cons.mp member with same | later
    · exact absurd same (Nat.ne_of_lt before)
    · exact absurd (increasing.1 _ later) (Nat.not_lt.mpr (Nat.le_of_lt before))

theorem Ordered.fails (fails : Fails env p assertion) :
    assertion.relatesQueues = false := by
  cases fails with
  | unready unready => exact (ordered.ready unready).elim
  | short ready few =>
    have enough := (ordered.front_count ready).2
    omega
  | uncounted ready none =>
    have positive := (ordered.front_count ready).1
    omega
  | overdrawn => rfl
  | apart apart => exact apart

/-! ## Sending -/

omit ordered in
@[simp] theorem WriteRequest.addMessage_originals (request : WriteRequest) (first : MessageRecord)
    (message : MessageData) :
    (request.addMessage first message).originals = request.originals ++ message.originals := by
  simp [WriteRequest.addMessage, WriteRequest.originals]

theorem Ordered.numbered_addMessage {codec : Nat} (first : MessageRecord)
    {message : MessageData} (numbered : p.state.Numbered message) :
    ∀ sent ∈ p.state.requests ++ [{ p.request with codec }.addMessage first message],
      ∀ part ∈ sent.messages, p.state.Numbered part := by
  intro sent member part within
  rcases mem_append.mp member with earlier | last
  · exact ordered.numbered sent (mem_append_left _ earlier) part within
  · rw [mem_singleton.mp last] at within
    rcases mem_append.mp within with earlier | new
    · exact ordered.numbered p.request (by simp) part earlier
    · rw [mem_singleton.mp new]
      exact numbered

theorem Ordered.send {taken kept : List OriginalMessage} {extended : WriteRequest}
    (sent : BlockSent env p.state p.request block taken kept extended) :
    Ordered { p with
      request := extended
      state := { p.state with
        originalMessagesToSend := kept
        sentOriginalMessages := p.state.sentOriginalMessages ++ taken
        packedMessagesToSend := p.state.packedMessagesToSend.erase block
        sentPackedMessage := p.state.sentPackedMessage ++ [block]
        heapPops := p.state.heapPops + 1 } } := by
  obtain ⟨front, others, ready, _⟩ := sent.ready
  obtain ⟨rest, covers, among⟩ := ordered.front_block ready.packed ready.first
  obtain ⟨head, last, message, rfl, carried, _, ends, number⟩ := sent.carried
  have split := sent.split
  obtain ⟨_, _, _, front, remaining⟩ := covers.uncons
  have idsLength : (taken.map (fun message => message.id)).length = block.span.2 := by
    rw [length_map, sent.counted]
    rfl
  rw [split, map_append, take_left' idsLength] at front
  rw [split, map_append, drop_left' idsLength] at remaining
  exact {
    __ := ordered
    within := by
      have within := ordered.within
      rw [split, map_append, ← append_assoc (.map _ p.state.sentOriginalMessages)] at within
      rw [← map_append] at within
      exact within
    sentCovered := by
      have together := ordered.sentCovered.append front
      rw [← map_append] at together
      rw [map_append]
      exact together
    waitingCovered := by
      refine ⟨rest, remaining, ?_⟩
      have rearranged : (block :: (p.block.toList ++ (p.state.packedMessagesToSend.erase block ++
          p.state.compressing))).Perm p.blocks :=
        perm_middle.symm.trans (((perm_cons_erase ready.packed).symm.append_right _).append_left _)
      exact (subperm_cons block.span).mp ((rearranged.map Block.span).subperm.trans among)
    numbered := ordered.numbered_addMessage head ⟨last, ends, number⟩
    inStep := by
      intro running established
      rcases ordered.inStep running established with inStep | ⟨⟨_, unsupported, other, otherPacked,
        several, otherFirst⟩, _⟩
      · left
        have extendedStep := congrArg (· ++ message.originals) inStep
        rw [carried] at extendedStep
        rw [State.InStep, WriteRequest.addMessage_originals, carried]
        simp only [append_assoc] at extendedStep ⊢
        rw [map_append]
        exact extendedStep
      · -- A refused block cannot have been sent.
        rw [ordered.front_unique ready.packed otherPacked ready.first otherFirst] at several
        rcases sent.supported with supported | single
        · rw [supported] at unsupported
          contradiction
        · omega
    down := fun _ down => absurd (ready.established.symm.trans down) Bool.noConfusion }

theorem Ordered.write (running : p.state.aborting = false)
    (memoryUsage : Nat) (pendingWrites : List Nat) :
    Ordered { p with
      request := {}
      state := { p.state with
        memoryUsage, pendingWrites, requests := p.state.requests ++ [p.request] } } := by
  have wire : (p.state.requests ++ [p.request]).flatMap WriteRequest.originals =
      p.state.wire ++ p.request.originals := by
    simp [State.wire]
  -- In step, the request ends where the sent messages end; otherwise it is empty.
  have reached : p.state.InStep p.request.originals ∨ p.request.originals = [] := by
    cases established : p.state.sessionEstablished with
    | true => exact (ordered.inStep running established).imp id And.right
    | false => exact .inr (ordered.down running established).2
  refine {
    __ := ordered
    behind := ?_
    numbered := ?_
    inStep := ?_
    down := fun _ down => ⟨(ordered.down running down).1, rfl⟩
    opened := ?_ }
  · rw [State.wire, wire, ← append_assoc]
    rcases reached with inStep | nothing
    · have sent : p.state.acked ++ p.state.sentOriginalMessages.map OriginalMessage.toMessageRecord <+:
          p.state.records :=
        (prefix_append_right_inj _).mpr (prefix_append _ _) |>.trans ordered.within
      exact Eq.substr (show _ = _ from inStep) sent
    · rw [nothing, append_nil]
      exact ordered.behind
  · intro sent member
    simp only [append_assoc, mem_append, mem_singleton] at member
    rcases member with earlier | rfl | rfl
    · exact ordered.numbered sent (mem_append_left _ earlier)
    · exact ordered.numbered p.request (by simp)
    · exact nofun
  · intro _ established
    rcases ordered.inStep running established with inStep | ⟨refused, _⟩
    · left
      have unpended : p.state.records.take p.state.ackedAtConnect ++
          (p.state.wire ++ p.request.originals) ++ [] =
          p.state.acked ++ p.state.sentOriginalMessages.map OriginalMessage.toMessageRecord := by
        rw [append_nil, ← append_assoc]
        exact inStep
      rw [State.InStep, State.wire, wire]
      exact unpended
    · exact .inr ⟨refused, rfl⟩
  · intro _ down open'
    have opened := ordered.opened running down open'
    exact ⟨by rw [State.wire, wire, opened.1, (ordered.down running down).2]; rfl, opened.2⟩

/-- The request is given up by a session that has aborted, or at a block that the server
does not take. -/
theorem Ordered.giveUp
    (why : p.state.aborting = false → p.state.Refused) : Ordered { p with request := {} } where
  __ := ordered
  numbered := by
    intro sent member
    rcases mem_append.mp member with earlier | last
    · exact ordered.numbered sent (mem_append_left _ earlier)
    · rw [mem_singleton.mp last]
      exact nofun
  inStep := fun running _ => .inr ⟨why running, rfl⟩
  down := fun running down => absurd ((why running).1.symm.trans down) Bool.noConfusion

theorem Ordered.relabel {sent waiting : List OriginalMessage}
    (sameSent : sent.map OriginalMessage.toMessageRecord =
      p.state.sentOriginalMessages.map OriginalMessage.toMessageRecord)
    (sameWaiting : waiting.map OriginalMessage.toMessageRecord =
      p.state.originalMessagesToSend.map OriginalMessage.toMessageRecord) :
    Ordered { p with state := { p.state with
      sentOriginalMessages := sent, originalMessagesToSend := waiting } } := by
  have ids {first second : List OriginalMessage}
      (same : first.map OriginalMessage.toMessageRecord =
        second.map OriginalMessage.toMessageRecord) :
      first.map (fun message => message.id) = second.map (fun message => message.id) := by
    simpa [Function.comp_def] using congrArg (List.map MessageRecord.id) same
  exact {
    __ := ordered
    within := by rw [sameSent, sameWaiting]; exact ordered.within
    sentCovered := by rw [SpansCover, ids sameSent]; exact ordered.sentCovered
    waitingCovered := by
      simp only [SpansCover, ids sameWaiting]
      exact ordered.waitingCovered
    inStep := by
      simp only [State.InStep, State.Refused, sameSent, ids sameWaiting]
      exact ordered.inStep
    down := fun running down => by
      obtain ⟨empty, nothing⟩ := ordered.down running down
      rw [empty] at sameSent
      exact ⟨map_eq_nil_iff.mp sameSent, nothing⟩ }

/-- Once the session has aborted nothing is sent, whatever the connection does. -/
theorem Ordered.abort (ackStates : Assoc Nat AckState) (closed : Option Status)
    (opening established : Bool) (direct : Option Nat) :
    Ordered { p with
      opening
      state := { p.state.aborted ackStates with
        closed, sessionEstablished := established, directWriteToPartitionId := direct } } where
  __ := ordered.relabel (withoutPromise_records _) (withoutPromise_records _)
  inStep := fun running => absurd running Bool.noConfusion
  down := fun running => absurd running Bool.noConfusion
  opened := fun running => absurd running Bool.noConfusion
  disconnected := fun running => absurd running Bool.noConfusion

/-! ## Blocks on their way -/

/-- A block may be held, queued or compressed, as long as it is in one place. -/
theorem Ordered.requeue {held : Option Block} {packed compressing : List Block}
    (placed : ((held.toList ++ (packed ++ compressing)).map Block.span).Subperm
      (p.blocks.map Block.span)) (kept : p.state.packedMessagesToSend ⊆ packed) :
    Ordered { p with
      block := held, state := { p.state with packedMessagesToSend := packed, compressing } } where
  __ := ordered
  waitingCovered := by
    obtain ⟨order, covers, among⟩ := ordered.waitingCovered
    exact ⟨order, covers, placed.trans among⟩
  inStep := by
    intro running established
    refine (ordered.inStep running established).imp id ?_
    rintro ⟨⟨_, unsupported, other, member, several, first⟩, nothing⟩
    exact ⟨⟨established, unsupported, other, kept member, several, first⟩, nothing⟩

theorem Ordered.pack (held : p.block = some block) {packed : Block}
    (same : packed.span = block.span) :
    Ordered { p with
      block := none
      state := { p.state with packedMessagesToSend := p.state.packedMessagesToSend ++ [packed] } } := by
  refine ordered.requeue (List.Perm.subperm ?_) (subset_append_left _ _)
  simp only [Point.blocks, held, map_append, map_cons, same,
    append_assoc]
  exact perm_middle

theorem Ordered.post (held : p.block = some block) : Ordered { p with
      block := none, state := { p.state with compressing := p.state.compressing ++ [block] } } := by
  refine ordered.requeue (List.Perm.subperm (.map _ ?_)) (fun _ => id)
  have posted : (p.state.packedMessagesToSend ++ (p.state.compressing ++ [block])).Perm
      (block :: (p.state.packedMessagesToSend ++ p.state.compressing)) := by
    rw [← append_assoc]
    exact perm_append_singleton _ _
  rw [Point.blocks, held]
  exact posted

theorem Ordered.lose : Ordered { p with block := none } :=
  ordered.requeue ((sublist_append_right _ _).map _).subperm (fun _ => id)

theorem Ordered.take {task : Nat} (idle : p.block = none)
    (found : p.state.compressing[task]? = some block) :
    Ordered { p with
      block := some block
      state := { p.state with compressing := p.state.compressing.eraseIdx task } } := by
  obtain ⟨bound, here⟩ := List.getElem?_eq_some_iff.mp found
  have taken : (block :: (p.state.packedMessagesToSend ++ p.state.compressing.eraseIdx task)).Perm
      (p.state.packedMessagesToSend ++ p.state.compressing) := by
    rw [← here]
    exact perm_middle.symm.trans ((getElem_cons_eraseIdx_perm bound).append_left _)
  refine ordered.requeue (List.Perm.subperm (.map _ ?_)) (fun _ => id)
  rw [Point.blocks, idle]
  exact taken

end YdbSdk.Topic.WriteSession
