import YdbSdk.Data.Tally
import YdbSdk.Topic.WriteSession.Conservation

namespace YdbSdk.Topic.WriteSession

open YdbSdk.Control YdbSdk.Data

/-! # Memory accounting

`MemoryUsage` is changed by differences, at six places.  At every point of a reaction it
is what the queues, the batch and the block in no queue hold together.
-/

variable {env : Environment} {event : Event} {start state : State} {p q : Point} {block : Block}

def SessionEvent.isToken : SessionEvent → Bool
  | .readyToAccept => true
  | .acks _ => false

structure Holdings where
  memoryUsage : Nat
  currentBatch : MessageBatch
  compressing : List Block
  packed : List Block
  sent : List Block
  pendingWrites : List Nat
  aborting : Bool
  closed : Bool
  firstTokenSent : Bool
  continuationTokenIssued : Bool
  /-- Tokens handed to the user, tokens on their way, and tokens used. -/
  tokens : Nat
  scheduledTokenEvents : Nat
  accepted : Nat
  /-- What decides whether the server takes a block. -/
  sessionEstablished : Bool
  batchingSupported : Bool

def State.holdings (state : State) : Holdings where
  memoryUsage := state.memoryUsage
  currentBatch := state.currentBatch
  compressing := state.compressing
  packed := state.packedMessagesToSend
  sent := state.sentPackedMessage
  pendingWrites := state.pendingWrites
  aborting := state.aborting
  closed := state.closed.isSome
  firstTokenSent := state.firstTokenSent
  continuationTokenIssued := state.continuationTokenIssued
  tokens := state.events.countP SessionEvent.isToken
  scheduledTokenEvents := state.scheduledTokenEvents
  accepted := state.accepted.length
  sessionEstablished := state.sessionEstablished
  batchingSupported := state.batchingSupported

def MessageBatch.bytes (batch : MessageBatch) : Nat :=
  (batch.messages.map fun message => message.dataRef.length).sum

/-- The bytes the session holds: in the batch, under compression, packed, sent, and in
requests whose write callback has not come. -/
def Holdings.bytes (holdings : Holdings) : Nat :=
  holdings.currentBatch.bytes + (holdings.compressing.map Block.originalMemoryUsage).sum +
    (holdings.packed.map Block.memory).sum + (holdings.sent.map Block.memory).sum +
    holdings.pendingWrites.sum

/-- No flush throws before its batch is cleared, and no compression task throws. -/
def CompressesQuietly (env : Environment) (state : State) (event : Event) : Prop :=
  FlushesOnlyQuietly env state event ∧ ∀ task, event = .compressed task →
    ∀ block, state.compressing[task]? = some block → env.compresses block = true

def Point.bytes (p : Point) : Nat :=
  (if p.flushing then 0 else p.state.currentBatch.bytes) +
    (p.block.map Block.originalMemoryUsage).getD 0 +
    (p.state.compressing.map Block.originalMemoryUsage).sum +
    (p.state.packedMessagesToSend.map Block.memory).sum +
    (p.state.sentPackedMessage.map Block.memory).sum + p.state.pendingWrites.sum

theorem Point.bytes_idle (state : State) : ({ state } : Point).bytes = state.holdings.bytes := rfl

/-- The usage is what is held; an aborted session may also have dropped bytes without a
release. -/
structure Charged (p : Point) : Prop where
  covered : p.bytes ≤ p.state.memoryUsage
  exactly : p.state.aborting = false → p.bytes = p.state.memoryUsage
  buffered : p.flushing = false → p.state.currentBatch.data.length = p.state.currentBatch.bytes
  weighed : p.flushing = true → ∀ block ∈ p.block, block.memory = block.originalMemoryUsage

theorem Charged.change (charged : Charged p) (running : q.state.aborting = p.state.aborting)
    (bytes : q.bytes + p.state.memoryUsage = p.bytes + q.state.memoryUsage)
    (buffered : q.flushing = false → q.state.currentBatch.data.length = q.state.currentBatch.bytes)
    (weighed : q.flushing = true → ∀ block ∈ q.block, block.memory = block.originalMemoryUsage) :
    Charged q := by
  have covered := charged.covered
  refine ⟨by omega, fun still => ?_, buffered, weighed⟩
  have exactly := charged.exactly (running.symm.trans still)
  omega

theorem MessageBatch.toBlock_memory {batch : MessageBatch} {rebased : List Message}
    (found : batch.rebased = some rebased) :
    (batch.toBlock rebased).originalMemoryUsage = batch.bytes := by
  have sizes := congrArg (List.map MessageRecord.size) (rebaseDataRefs_toRecord found)
  rw [List.map_map, List.map_map] at sizes
  have lengths : (rebased.map fun message => message.dataRef.length).sum = batch.bytes :=
    congrArg List.sum sizes
  rw [← lengths]
  exact (foldl_add rebased {}).2.1.trans (Nat.zero_add _)

theorem MessageBatch.acquire_add (batch : MessageBatch) (now : Instant) (message : Message) :
    (batch.add now message).acquire =
      { batch.add now message with data := batch.data ++ message.dataRef, acquired := true } := by
  simp [MessageBatch.acquire, MessageBatch.add]

theorem State.memory_releasedBy (state : State) (id : Nat) :
    (state.sentPackedMessage.map Block.memory).sum =
      ((state.packedAfterAck id).map Block.memory).sum +
        ((state.releasedBy id).map Block.memory).getD 0 := by
  unfold State.packedAfterAck State.releasedBy
  cases state.sentPackedMessage with
  | nil => rfl
  | cons front rest =>
    by_cases same : front.offset = id
    · simp [same, Option.filter, Nat.add_comm]
    · simp [same, Option.filter]

theorem Charged.move (charged : Charged p) (reached : At env event start p) (sound : start.Sound)
    (moved : Move env event start p q) : Charged q := by
  cases moved with
  | @sends block _ _ _ sent =>
    obtain ⟨_, _, ready, _⟩ := sent.ready
    have erased := sum_map_erase Block.memory (PriorityQueue.top?_mem ready.topmost)
    refine charged.change rfl ?_ charged.buffered charged.weighed
    simp only [Point.bytes, List.map_append, List.sum_append, List.map_cons, List.map_nil,
      List.sum_cons, List.sum_nil]
    omega
  | writes =>
    refine charged.change rfl ?_ charged.buffered charged.weighed
    simp only [Point.bytes, List.sum_append, List.sum_cons, List.sum_nil]
    omega
  | expires | aborts => exact { charged with exactly := by rintro ⟨⟩ }
  | @builds rebased _ _ _ idle _ _ found =>
    have usage := MessageBatch.toBlock_memory found
    refine charged.change rfl ?_ (by simp) fun _ block held => ?_
    · simp only [Point.bytes, idle.1, idle.2, Option.map_some, Option.getD_some, usage]
      simp
    · cases held
      have length : (p.state.currentBatch.toBlock rebased).data.length = p.state.currentBatch.bytes := by
        rw [MessageBatch.toBlock, (reached.acquired sound).acquire_eq]
        exact charged.buffered idle.2
      rw [Block.memory, length, usage]
      exact ite_self _
  | packs held flushing =>
    have weight := charged.weighed flushing _ held
    refine charged.change rfl ?_ charged.buffered (by simp)
    simp only [Point.bytes, held, List.map_append, List.sum_append, List.map_cons, List.map_nil,
      List.sum_cons, List.sum_nil, weight, Option.map_some, Option.getD_some, Option.map_none,
      Option.getD_none]
    omega
  | compresses held _ _ paid =>
    refine charged.change rfl ?_ charged.buffered (by simp)
    simp only [Point.bytes, held, List.map_append, List.sum_append, List.map_cons, List.map_nil,
      List.sum_cons, List.sum_nil, Option.map_some, Option.getD_some, Option.map_none,
      Option.getD_none]
    omega
  | posts held =>
    refine charged.change rfl ?_ charged.buffered (by simp)
    simp only [Point.bytes, held, List.map_append, List.sum_append, List.map_cons, List.map_nil,
      List.sum_cons, List.sum_nil, Option.map_some, Option.getD_some, Option.map_none,
      Option.getD_none]
    omega
  | loses aborting =>
    -- An aborted session drops the block, and its memory stays charged.
    have covered := charged.covered
    refine ⟨?_, fun running => absurd (aborting.symm.trans running) (by simp), charged.buffered, by simp⟩
    simp only [Point.bytes, Option.map_none, Option.getD_none] at covered ⊢
    omega
  | clears packed flushing =>
    refine charged.change rfl ?_ (fun _ => rfl) (by simp)
    simp [Point.bytes, flushing, MessageBatch.bytes]
  | takes _ _ idle found =>
    have taken := sum_map_eraseIdx Block.originalMemoryUsage found
    refine charged.change rfl ?_ charged.buffered fun flushing => ?_
    · simp only [Point.bytes, idle.1, Option.map_some, Option.getD_some, Option.map_none,
        Option.getD_none]
      omega
    · exact absurd (idle.2.symm.trans flushing) (by simp)
  | @accepts now message id _ _ _ _ idle =>
    have unflushed := idle.2
    have added : (p.state.currentBatch.add now (message.toMessage now id)).acquire.bytes =
        p.state.currentBatch.bytes + message.data.length := by
      rw [MessageBatch.acquire_add]
      simp [MessageBatch.bytes, MessageBatch.add, WriteMessage.toMessage]
    have length : (p.state.currentBatch.add now (message.toMessage now id)).acquire.data.length =
        p.state.currentBatch.data.length + message.data.length := by
      simp [MessageBatch.acquire_add, WriteMessage.toMessage]
    refine charged.change rfl ?_ (fun _ => ?_) charged.weighed
    · simp only [Point.bytes, unflushed, added]
      simp
      omega
    · have buffered := charged.buffered unflushed
      simp only [added, length, buffered]
  | @acknowledges _ firstId usage _ _ _ _ _ _ _ _ _ _ _ freed =>
    have released := p.state.memory_releasedBy firstId
    refine charged.change rfl ?_ charged.buffered charged.weighed
    simp only [Point.bytes]
    omega
  | restarts =>
    refine charged.change rfl ?_ charged.buffered charged.weighed
    simp only [Point.bytes, List.map_append, List.sum_append, List.map_nil, List.sum_nil]
    omega
  | releases found freed =>
    have taken := sum_map_eraseIdx id found
    simp only [List.map_id, id_eq] at taken
    refine charged.change rfl ?_ charged.buffered charged.weighed
    simp only [Point.bytes]
    omega
  | _ => exact { charged with }

/-- A block in no queue that no flush built was taken from the executor. -/
theorem At.taken (reached : At env event start p) (held : p.block = some block)
    (unflushed : p.flushing = false) :
    ∃ task, event = .compressed task ∧ start.compressing[task]? = some block := by
  induction reached with
  | start => exact absurd held nofun
  | move _ moved taken =>
    cases moved with
    | builds => exact absurd unflushed nofun
    | packs | compresses | posts | loses => exact absurd held nofun
    | clears packed => exact absurd (packed.symm.trans held) nofun
    | takes runs listed =>
      cases held
      exact ⟨_, runs, listed⟩
    | _ => exact taken held unflushed

/-- Where an exception can leave the code, no block is outside the queues. -/
theorem Throws.no_block (throws : Throws env event start p after)
    (reached : At env event start p) (quiet : CompressesQuietly env start event) : p.block = none := by
  have unflushed := throws.not_flushing reached quiet.1
  cases throws with
  | refused _ packed => exact packed
  | uncoded _ held _ fails =>
    obtain ⟨task, runs, listed⟩ := reached.taken held unflushed
    exact absurd (fails.symm.trans (quiet.2 task runs _ listed)) nofun
  | rejected _ idle | called idle =>
    rw [idle]

theorem Charged.thrown (charged : Charged p) (unflushed : p.flushing = false)
    (none : p.block = none) (throws : Throws env event start p after) : Charged { state := after } := by
  have idle : Charged { state := p.state } := by
    obtain ⟨state, _, _, block, flushing⟩ := p
    subst unflushed none
    exact { charged with }
  cases throws <;> exact { idle with }

theorem Charged.fails {assertion : Assertion} (charged : Charged p) (fails : Fails env p assertion) :
    assertion ≠ .memoryUsageCovers := by
  have covered := charged.covered
  rintro rfl
  cases fails with
  | unready unready =>
    obtain ⟨_, _, ⟨wrong, _⟩ | ⟨wrong, _⟩⟩ := unready <;> exact absurd wrong nofun
  | short _ _ which => exact absurd which (by simp)
  | overdrawn held exceeds =>
    rcases held with ⟨block, held, rfl⟩ | ⟨block, member, rfl⟩ | member
    · simp only [Point.bytes, held, Option.map_some, Option.getD_some] at covered
      omega
    · have some := List.le_sum_of_mem (List.mem_map_of_mem (f := Block.memory) member)
      simp only [Point.bytes] at covered
      omega
    · have some := List.le_sum_of_mem member
      simp only [Point.bytes] at covered
      omega
  | apart _ differs => exact differs rfl

theorem charged_carries (event : Event) (sound : start.Sound) (charged : Charged { state := start })
    (quiet : CompressesQuietly env start event) :
    Carries env event start Charged (fun state => Charged { state }) (· ≠ .memoryUsageCovers) where
  enters := { charged with }
  moves := fun reached moved charged => charged.move reached sound moved
  leaves := fun charged => charged
  thrown := fun reached charged throws =>
    charged.thrown (throws.not_flushing reached quiet.1) (throws.no_block reached quiet) throws
  fails := Charged.fails

theorem charged_of_reaches (reached : Reaches env (CompressesQuietly env) state) :
    state.Sound ∧ Charged { state } :=
  reached.carried _ (fun _ _ => Charged) _ ⟨Nat.le_refl 0, fun _ => rfl, fun _ => rfl, nofun⟩
    fun _ event sound charged quiet => charged_carries event sound charged quiet

/-- The usage is the bytes held until the session aborts, and covers them after that;
so no release exceeds the usage. -/
theorem memory_usage_is_bytes_held (env : Environment) (state : State)
    (reached : Reaches env (CompressesQuietly env) state) :
    (state.aborting = false → state.memoryUsage = state.holdings.bytes) ∧
      state.holdings.bytes ≤ state.memoryUsage ∧
      ∀ event, CompressesQuietly env state event →
        (react env event).step state ≠ .error .memoryUsageCovers := by
  obtain ⟨sound, charged⟩ := charged_of_reaches reached
  have same := Point.bytes_idle state
  refine ⟨fun running => ?_, ?_, fun event permitted failed => ?_⟩
  · exact (charged.exactly running).symm
  · exact charged.covered
  · exact Code.wp_step_error ((charged_carries event sound charged permitted).wp sound) failed rfl

theorem compressesQuietly (state : State) (event : Event) : CompressesQuietly asynchronousSession state event :=
  ⟨fun _ => .inl rfl, fun _ _ _ _ => rfl⟩

theorem memory_usage_is_bytes_held_out_of_order :
    ∃ state, Reaches asynchronousSession (CompressesQuietly asynchronousSession) state ∧
      (state.aborting = false ∧ state.memoryUsage = 4) ∧
      state.memoryUsage = state.holdings.bytes := by
  obtain ⟨state, reached, running, four⟩ : ∃ state,
      Reaches asynchronousSession (CompressesQuietly asynchronousSession) state ∧
      state.aborting = false ∧ state.memoryUsage = 4 :=
    exists_reachable outOfOrderEvents ⟨permitted_of_always compressesQuietly, by decide +kernel⟩
  exact ⟨state, reached, ⟨running, four⟩, (memory_usage_is_bytes_held _ state reached).1 running⟩

def writeAfterCloseEvents : List Event :=
  [.connect false true, .serverMessage 1 (.initResponse { lastSeqNo := 0 }), .closeTimedOut,
    .write 1 { data := [1] }]

theorem dropped_block_stays_charged :
    ∃ state, Reaches asynchronousSession (CompressesQuietly asynchronousSession) state ∧
      state.memoryUsage ≠ state.holdings.bytes :=
  exists_reachable writeAfterCloseEvents ⟨permitted_of_always compressesQuietly, by decide +kernel⟩

end YdbSdk.Topic.WriteSession
