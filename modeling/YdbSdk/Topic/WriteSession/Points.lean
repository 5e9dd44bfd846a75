import YdbSdk.Topic.WriteSession.Abort

namespace YdbSdk.Topic.WriteSession

open YdbSdk.Control YdbSdk.Data

/-! # What running code can do

A reaction takes the session from one point to the next.  A point is the state with what
the running code holds besides: the request being filled, a block in no queue, tokens
whose events are not pushed.  `Move` lists the changes with what is known when they are
made; changes between which nothing can go wrong are one move.  Every invariant is shown
for the moves, once for all the code that makes them.
-/

structure Registry where
  txs : Assoc TransactionId Nat
  txInfos : List TransactionInfo
  writtenInTx : Assoc Nat TransactionId
  writtenInDeferred : Assoc Nat DeferredInFlightWrite
  ackStates : Assoc Nat AckState

def State.registry (state : State) : Registry where
  txs := state.txs
  txInfos := state.txInfos
  writtenInTx := state.writtenInTx
  writtenInDeferred := state.writtenInDeferred
  ackStates := state.ackStates

def State.register (state : State) (registry : Registry) : State :=
  { state with
    txs := registry.txs
    txInfos := registry.txInfos
    writtenInTx := registry.writtenInTx
    writtenInDeferred := registry.writtenInDeferred
    ackStates := registry.ackStates }

def Registry.counters (registry : Registry) (ackState : Nat) : AckState :=
  (registry.ackStates.find ackState).getD {}

inductive TxOpened (txId : TransactionId) (before : Registry) : Nat → Registry → Prop where
  | found {index : Nat} (named : before.txs.find txId = some index) :
      TxOpened txId before index before
  | created (missing : before.txs.find txId = none) :
      TxOpened txId before before.txInfos.length { before with
        txs := before.txs.insert txId before.txInfos.length
        txInfos := before.txInfos ++ [{ txId := txId }] }

def TransactionInfo.subscribe (added : Bool) (info : TransactionInfo) : TransactionInfo :=
  { info with
    isActive := true, subscribed := true, allAcksReceived := none
    callbackAdded := added || info.callbackAdded }

/-- The in-flight write under this number once one more message joined it. -/
def joinInFlight (id : Nat) (publication : DeferredPublication)
    (written : Assoc Nat DeferredInFlightWrite) : DeferredInFlightWrite :=
  let inFlight := (written.find id).getD
    { ackState := publication.ackState
      intPublicationId := publication.intPublicationId
      extPublicationId := publication.extPublicationId
      unackedCount := 0 }
  { inFlight with unackedCount := inFlight.unackedCount + 1 }

/-- A write is registered, and `txInfo` is the transaction object it is counted in. -/
inductive Registers (id : Nat) (before : Registry) : WriteContext → Option Nat → Registry → Prop where
  | plain : Registers id before .plain none before
  | transaction {txId : TransactionId} {index : Nat} {opened : Registry}
      (opens : TxOpened txId before index opened) :
      Registers id before (.transaction txId) (some index) { opened with
        txInfos := opened.txInfos.modify index
          (fun info => { info with writeCount := info.writeCount + 1 })
        writtenInTx := opened.writtenInTx.insert id txId }
  | deferred (publication : DeferredPublication) :
      Registers id before (.deferred publication) none { before with
        ackStates := before.ackStates.insert publication.ackState
          { before.counters publication.ackState with
            writeCount := (before.counters publication.ackState).writeCount + 1 }
        writtenInDeferred := before.writtenInDeferred.insert id
          (joinInFlight id publication before.writtenInDeferred) }

def TransactionInfo.finishes (info : TransactionInfo) : Bool :=
  info.commitCalled && info.writeCount == info.ackCount + 1

def TransactionInfo.acknowledge (info : TransactionInfo) : TransactionInfo :=
  { info with
    ackCount := info.ackCount + 1
    allAcksReceived := if info.finishes then some .success else info.allAcksReceived }

def AckState.acknowledge (counters : AckState) : AckState :=
  { counters with
    ackCount := counters.ackCount + 1
    allAcksReceived :=
      if counters.writeCount == counters.ackCount + 1 && counters.waitCalled then
        counters.allAcksReceived.or (some .success)
      else counters.allAcksReceived }

def countDown (seqNo : Nat) (write : DeferredInFlightWrite)
    (written : Assoc Nat DeferredInFlightWrite) : Assoc Nat DeferredInFlightWrite :=
  if write.unackedCount = 1 then written.erase seqNo
  else written.insert seqNo { write with unackedCount := write.unackedCount - 1 }

inductive AckSignalled (seqNo : Nat) (before : Registry) : Registry → Prop where
  | deferred {write : DeferredInFlightWrite}
      (found : before.writtenInDeferred.find seqNo = some write) :
      AckSignalled seqNo before { before with
        ackStates := before.ackStates.insert write.ackState
          (before.counters write.ackState).acknowledge
        writtenInDeferred := countDown seqNo write before.writtenInDeferred }
  | plain (notDeferred : before.writtenInDeferred.find seqNo = none)
      (notTx : before.writtenInTx.find seqNo = none) : AckSignalled seqNo before before
  | transaction {txId : TransactionId} {index : Nat} {opened : Registry} {info : TransactionInfo}
      (notDeferred : before.writtenInDeferred.find seqNo = none)
      (written : before.writtenInTx.find seqNo = some txId)
      (opens : TxOpened txId before index opened)
      (found : opened.txInfos[index]? = some info) (named : info.txId = txId)
      (unresolved : info.allAcksReceived = none) :
      AckSignalled seqNo before { opened with
        txInfos := opened.txInfos.modify index .acknowledge
        txs := if info.finishes then opened.txs.erase txId else opened.txs }

inductive SignalledAll : List Nat → Registry → Registry → Prop where
  | nil (registry : Registry) : SignalledAll [] registry registry
  | cons {seqNo : Nat} {rest : List Nat} {before middle after : Registry}
      (first : AckSignalled seqNo before middle) (others : SignalledAll rest middle after) :
      SignalledAll (seqNo :: rest) before after

/-- What the precommit callback makes of the object it belongs to. -/
def TransactionInfo.commit (info : TransactionInfo) : TransactionInfo :=
  if info.writeCount = info.ackCount then
    { info with
      commitCalled := true, allAcksReceived := some .success, precommit := some .allAcksReceived }
  else
    { info with
      commitCalled := true
      precommit := some (if info.isActive then .allAcksReceived else .ready .sessionExpired) }

/-! ## Blocks and batches -/

def State.seqNo? (state : State) (id : Nat) : Option Nat :=
  match state.autoSeqNoMode, state.initSeqNo with
  | some auto, some initSeqNo => some (if auto then id + initSeqNo else id)
  | _, _ => none

def State.id? (state : State) (seqNo : Nat) : Option Nat :=
  match state.autoSeqNoMode, state.initSeqNo with
  | some false, _ => some seqNo
  | some true, some initSeqNo => if initSeqNo < seqNo then some (seqNo - initSeqNo) else none
  | _, _ => none

def State.Busy (state : State) : Prop :=
  state.packedMessagesToSend ≠ [] ∨ state.sentPackedMessage ≠ []

/-- The block on top starts with the message that waits longest, and may be sent. -/
structure State.ReadyToSend (env : Environment) (state : State) (block : Block) (front : OriginalMessage)
    (rest : List OriginalMessage) : Prop where
  established : state.sessionEstablished = true
  running : state.aborting = false
  topmost : state.top env = some block
  waiting : state.originalMessagesToSend = front :: rest
  placed : block.offset = front.id

/-- One of the assertions on the two queues fails. -/
def State.Unready (env : Environment) (state : State) (assertion : Assertion) : Prop :=
  ∃ top, state.top env = some top ∧
    ((assertion = .noOriginalMessages ∧ state.originalMessagesToSend = []) ∨
      (assertion = .lostOriginalMessages ∧ ∃ front rest,
        state.originalMessagesToSend = front :: rest ∧ top.offset < front.id))

/-- The block becomes a message of the request with the original messages it stands for,
and this message has the number of the last one. -/
structure BlockTaken (state : State) (request : WriteRequest) (block : Block)
    (taken kept : List OriginalMessage) (extended : WriteRequest) : Prop where
  supported : state.batchingSupported = true ∨ block.messageCount ≤ 1
  counted : taken.length = block.messageCount
  split : state.originalMessagesToSend = taken ++ kept
  carried : ∃ first last message, extended = request.addMessage first message ∧
    message.originals = taken.map OriginalMessage.toMessageRecord ∧
    message.originals.head? = some first ∧ message.originals.getLast? = some last ∧
    state.seqNo? last.id = some message.seqNo

/-- The block on top goes into the request, whose codec and context it shares. -/
structure BlockSent (env : Environment) (state : State) (request : WriteRequest) (block : Block)
    (taken kept : List OriginalMessage) (extended : WriteRequest) : Prop
    extends BlockTaken state { request with codec := block.codecId } block taken kept extended where
  ready : ∃ front rest, state.ReadyToSend env block front rest ∧
    writeContextChanged request front.writeContext = false
  codec : request.messages = [] ∨ request.codec = block.codecId

def Message.toOriginal (message : Message) : OriginalMessage where
  toMessageRecord := message.toRecord

def Block.add (block : Block) (message : Message) : Block :=
  let joined : Block := { block with
    offset := if block.messageCount = 0 then message.id else block.offset
    messageCount := block.messageCount + 1
    originalSize := block.originalSize + message.dataRef.length
    originalMemoryUsage := block.originalMemoryUsage + message.dataRef.length
    originalDataRefs := block.originalDataRefs ++ [message.dataRef]
    createdAt := block.createdAt ++ [message.createdAt]
    messageKeys := block.messageKeys ++ [getMessageKey message.messageMeta] }
  match message.codec with
  | none => joined
  | some codec =>
    { joined with codecId := codec.id, originalSize := message.originalSize, compressed := true }

def MessageBatch.rebased (batch : MessageBatch) : Option (List Message) :=
  rebaseDataRefs batch.acquire.data 0 batch.messages

def MessageBatch.toBlock (batch : MessageBatch) (rebased : List Message) : Block :=
  { rebased.foldl Block.add {} with data := batch.acquire.data }

def MessageBatch.emptied (batch : MessageBatch) (rebased : List Message) : MessageBatch :=
  { batch.acquire with data := [], messages := rebased.map .movedFrom }

/-- The batch turned into a block and waiting originals: what `WriteBatchImpl` has made of
the state when it hands the block over. -/
def Flushed (before : State) (block : Block) (after : State) : Prop :=
  ∃ rebased compressed uncompressed, before.currentBatch.rebased = some rebased ∧
    (∀ message ∈ rebased, message.codec ≠ none → rebased.length = 1) ∧
    block = before.currentBatch.toBlock rebased ∧
    after = { before with
      bytesInflightCompressed := compressed, bytesInflightUncompressed := uncompressed
      originalMessagesToSend := before.originalMessagesToSend ++ rebased.map Message.toOriginal
      currentBatch := before.currentBatch.emptied rebased }

def Block.memory (block : Block) : Nat :=
  if block.compressed then block.data.length else block.originalMemoryUsage

/-- What `CompressWriteBlock` makes of a block. -/
inductive Compresses (env : Environment) (block : Block) : Block → Prop where
  | kept : Compresses env block block
  | coded {data : Bytes} (nonempty : data.isEmpty = false) :
      Compresses env block
        { block with data, compressed := true, codecId := env.settings.codec.id }

def Environment.compresses (env : Environment) (block : Block) : Bool :=
  decide (env.settings.codec = .kafkaBatch ∧ block.originalDataRefs.length = 1) ||
    (env.encode env.settings.codec block.originalDataRefs).isSome

def State.packedAfterAck (state : State) (id : Nat) : List Block :=
  match state.sentPackedMessage with
  | front :: rest => if front.offset = id then rest else front :: rest
  | [] => []

def State.releasedBy (state : State) (id : Nat) : Option Block :=
  state.sentPackedMessage.head?.filter (fun front => front.offset = id)

def WriteMessage.toMessage (message : WriteMessage) (now : Instant) (id : Nat) : Message where
  id := id
  createdAt := message.createTimestamp.getD now
  dataRef := message.data
  codec := message.codec
  originalSize := message.originalSize
  messageMeta := message.messageMeta
  writeContext := message.writeContext

def MessageBatch.Acquired (batch : MessageBatch) : Prop :=
  (batch.acquired = true ∨ batch.messages = []) ∧ batch.flushRequested = false

structure State.Sound (state : State) : Prop where
  txs : state.TxSound
  batch : state.currentBatch.Acquired

/-! ## Points and moves -/

def Event.mayFlush : Event → Bool
  | .write _ _ | .wakeUp _ | .flush | .close => true
  | _ => false

def Event.answers : Event → Bool
  | .serverMessage _ (.writeResponse _) => true
  | _ => false

def State.changesContext (state : State) (message : WriteMessage) : Bool :=
  state.currentBatch.messages.head?.any (fun front => !front.writeContext.same message.writeContext)

/-- A write to a state flushes the batch first. -/
def Event.changesContext (event : Event) (state : State) : Bool :=
  match event with
  | .write _ message => state.changesContext message
  | _ => false

structure Point where
  state : State
  /-- The message of a write is not accepted yet. -/
  opening : Bool := false
  request : WriteRequest := {}
  /-- A block that was built or taken from the executor and is in no queue. -/
  block : Option Block := none
  /-- The messages of the batch are among the originals, and the batch is not cleared. -/
  flushing : Bool := false
  /-- Memory has not been released since the last attempt to issue a token. -/
  settled : Bool := true
  /-- Tokens that were issued and whose events are not pushed yet. -/
  due : Nat := 0
  reports : List WriteAck := []

def Point.start (event : Event) (state : State) : Point where
  state := state
  opening := match event with
    | .write _ _ => true
    | _ => false

/-- A closed queue takes no more events. -/
def Pushed (state : State) (event : SessionEvent) (events : List SessionEvent) : Prop :=
  if state.closed.isSome then events = state.events else events = state.events ++ [event]

def NumberTaken (mode : Option Bool) (nextId : Nat) (seqNo : Option Nat) (id : Nat) : Prop :=
  seqNo = some id ∧ mode.or (some seqNo.isNone) = some false ∨
    seqNo = none ∧ id = nextId + 1 ∧ mode.or (some seqNo.isNone) = some true

inductive Move (env : Environment) (event : Event) (start : State) : Point → Point → Prop where
  | sends {p : Point} {block : Block} {taken kept : List OriginalMessage} {extended : WriteRequest}
      (sent : BlockSent env p.state p.request block taken kept extended) :
      Move env event start p { p with
        request := extended
        state := { p.state with
          originalMessagesToSend := kept
          sentOriginalMessages := p.state.sentOriginalMessages ++ taken
          packedMessagesToSend := p.state.packedMessagesToSend.erase block
          sentPackedMessage := p.state.sentPackedMessage ++ [block]
          heapPops := p.state.heapPops + 1 } }
  | writes {p : Point} (running : p.state.aborting = false)
      (busy : p.state.Busy) :
      Move env event start p { p with
        request := {}
        state := { p.state with
          memoryUsage := p.state.memoryUsage + env.spaceUsedLong p.request
          pendingWrites := p.state.pendingWrites ++ [env.spaceUsedLong p.request]
          requests := p.state.requests ++ [p.request] } }
  | drops {p : Point} (aborting : p.state.aborting = true) :
      Move env event start p { p with request := {} }
  /-- The credentials provider fails between two requests. -/
  | expires {p : Point} {ackStates : Assoc Nat AckState} {closed : Option Status}
      (running : p.state.aborting = false) (fails : env.tokenUpdateFails p.state.heapPops = true)
      (changes : p.opening = true → event.changesContext start = true)
      (given : ∀ ackState, (ackStates.find ackState).getD {} =
        (p.state.counters ackState).giveBack (unackedOf ackState p.state.writtenInDeferred)) :
      Move env event start p { p with state := { p.state.aborted ackStates with closed } }
  | aborts {p : Point} {ackStates : Assoc Nat AckState} {closed : Option Status} {established : Bool}
      {direct : Option Nat} (running : p.state.aborting = false)
      (connected : established = true → p.state.sessionEstablished = true)
      (given : ∀ ackState, (ackStates.find ackState).getD {} =
        (p.state.counters ackState).giveBack (unackedOf ackState p.state.writtenInDeferred)) :
      Move env event start p { p with
        opening := false
        state := { p.state.aborted ackStates with
          closed, sessionEstablished := established, directWriteToPartitionId := direct } }
  /-- Marks that no other part of the session depends on. -/
  | marks {p : Point} {scheduled unsupported : Bool} {closed : Option Status}
      (closing : closed = p.state.closed ∨ p.state.aborting = true) :
      Move env event start p { p with
        state := { p.state with
          sendImplScheduled := scheduled, directWriteUnsupported := unsupported, closed } }
  | builds {p : Point} {rebased : List Message} {compressed uncompressed : Int}
      (flushes : event.mayFlush = true) (idle : p.block = none ∧ p.flushing = false)
      (changes : p.opening = true → event.changesContext start = true)
      (waiting : p.state.currentBatch.empty = false)
      (found : p.state.currentBatch.rebased = some rebased)
      (alone : ∀ message ∈ rebased, message.codec ≠ none → rebased.length = 1)
      (limited : p.state.currentBatch.messages.length ≤ env.settings.batchFlushMessageCount) :
      Move env event start p { p with
        block := some (p.state.currentBatch.toBlock rebased)
        flushing := true
        state := { p.state with
          bytesInflightCompressed := compressed, bytesInflightUncompressed := uncompressed
          originalMessagesToSend := p.state.originalMessagesToSend ++ rebased.map Message.toOriginal
          currentBatch := p.state.currentBatch.emptied rebased } }
  | packs {p : Point} {block : Block} (held : p.block = some block) (flushing : p.flushing = true) :
      Move env event start p { p with
        block := none
        state := { p.state with packedMessagesToSend := p.state.packedMessagesToSend ++ [block] } }
  | compresses {p : Point} {block packed : Block} {usage : Nat} {compressed uncompressed : Int}
      (held : p.block = some block) (uncoded : block.compressed = false)
      (made : Compresses env block packed)
      (charged : usage + block.originalMemoryUsage = p.state.memoryUsage + packed.memory) :
      Move env event start p { p with
        block := none
        settled := false
        state := { p.state with
          memoryUsage := usage
          bytesInflightCompressed := compressed, bytesInflightUncompressed := uncompressed
          packedMessagesToSend := p.state.packedMessagesToSend ++ [packed] } }
  | posts {p : Point} {block : Block} (held : p.block = some block)
      (async : env.settings.compressionExecutorIsAsync = true) :
      Move env event start p { p with
        block := none
        state := { p.state with compressing := p.state.compressing ++ [block] } }
  /-- An aborted session drops the block. -/
  | loses {p : Point} (aborting : p.state.aborting = true) :
      Move env event start p { p with block := none }
  | clears {p : Point} (packed : p.block = none) (flushing : p.flushing = true) :
      Move env event start p { p with
        flushing := false
        state := { p.state with currentBatch := {} } }
  | attaches {p : Point} :
      Move env event start p { p with
        state := { p.state with
          nextFlushPromise := p.state.nextFlushPromise + 1
          originalMessagesToSend :=
            flush.attach p.state.nextFlushPromise p.state.originalMessagesToSend
          sentOriginalMessages :=
            if p.state.originalMessagesToSend.isEmpty then
              flush.attach p.state.nextFlushPromise p.state.sentOriginalMessages
            else p.state.sentOriginalMessages } }
  | takes {p : Point} {task : Nat} {block : Block} (runs : event = .compressed task)
      (listed : start.compressing[task]? = some block) (idle : p.block = none ∧ p.flushing = false)
      (found : p.state.compressing[task]? = some block) :
      Move env event start p { p with
        block := some block
        state := { p.state with compressing := p.state.compressing.eraseIdx task } }
  | refuses {p : Point} (unsettled : p.settled = false) (why : p.state.aborting = true ∨ p.state.continuationTokenIssued = true ∨
        env.settings.maxMemoryUsage < p.state.memoryUsage) :
      Move env event start p { p with settled := true }
  | issues {p : Point} (unsettled : p.settled = false) (running : p.state.aborting = false)
      (none : p.state.continuationTokenIssued = false) :
      Move env event start p { p with
        settled := true
        due := p.due + 1
        state := { p.state with continuationTokenIssued := true } }
  | pushes {p : Point} {due : Nat} {events : List SessionEvent} (owed : p.due = due + 1)
      (pushed : Pushed p.state .readyToAccept events) :
      Move env event start p { p with due, state := { p.state with events } }
  | parks {p : Point} {due : Nat} (owed : p.due = due + 1) :
      Move env event start p { p with
        due
        state := { p.state with scheduledTokenEvents := p.state.scheduledTokenEvents + 1 } }
  | unparks {p : Point} {scheduled : Nat} (parked : p.state.scheduledTokenEvents = scheduled + 1) :
      Move env event start p { p with
        due := p.due + 1
        state := { p.state with scheduledTokenEvents := scheduled } }
  | subscribes {p : Point} {now : Instant} {message : WriteMessage} {tx : Transaction} {index : Nat}
      {opened : Registry} {info : TransactionInfo} (written : event = .write now message)
      (inTx : message.tx = some tx) (opening : p.opening = true)
      (opens : TxOpened tx.id p.state.registry index opened)
      (found : opened.txInfos[index]? = some info) (unsubscribed : info.subscribed = false) :
      Move env event start p { p with
        opening := tx.changesAreAccepted
        state := p.state.register { opened with
          txInfos := opened.txInfos.modify index (.subscribe tx.changesAreAccepted) } }
  /-- The write ends without its message. -/
  | quits {p : Point} : Move env event start p { p with opening := false }
  /-- A number is taken in vain: the write is rejected. -/
  | numbers {p : Point} {automatic : Bool} (opening : p.opening = true) :
      Move env event start p { p with
        opening := false
        state := { p.state with
          nextId := p.state.nextId + 1
          autoSeqNoMode := p.state.autoSeqNoMode.or (some automatic) } }
  | accepts {p : Point} {now : Instant} {message : WriteMessage} {id : Nat} {txInfo : Option Nat}
      {registered : Registry} (written : event = .write now message) (opening : p.opening = true)
      (idle : p.block = none ∧ p.flushing = false)
      (numbered : NumberTaken p.state.autoSeqNoMode p.state.nextId message.seqNo id)
      (subscribed : ∀ txId, message.writeContext = .transaction txId →
        (∃ tx, message.tx = some tx) ∧ ∃ index, p.state.txs.find txId = some index)
      (registers : Registers id p.state.registry message.writeContext txInfo registered) :
      Move env event start p { p with
        opening := false
        settled := false
        state := { p.state with
          txs := registered.txs, txInfos := registered.txInfos
          writtenInTx := registered.writtenInTx, writtenInDeferred := registered.writtenInDeferred
          ackStates := registered.ackStates
          nextId := p.state.nextId + 1
          autoSeqNoMode := p.state.autoSeqNoMode.or (some message.seqNo.isNone)
          currentBatch := (p.state.currentBatch.add now (message.toMessage now id)).acquire
          accepted := p.state.accepted ++ [{ record := (message.toMessage now id).toRecord, txInfo }]
          continuationTokenIssued := false
          memoryUsage := p.state.memoryUsage + message.data.length } }
  | fixes {p : Point} (notAuto : p.state.autoSeqNoMode ≠ some true) (asked : event = .getInitSeqNo) :
      Move env event start p { p with state := { p.state with autoSeqNoMode := some false } }
  | acknowledges {p : Point} {ack : ServerAck} {firstId usage : Nat} {signalled : Registry}
      {released kept : List OriginalMessage} {reports : List WriteAck} {results : List (Nat × Bool)}
      {compressed uncompressed : Int}
      (numbered : p.state.id? ack.seqNo = some firstId)
      (signals : SignalledAll (.range' firstId (ackedMessageCount p.state firstId))
        p.state.registry signalled)
      (ids : released.map (fun message => message.id) =
        .range' firstId (max 1 (ackedMessageCount p.state firstId)))
      (split : p.state.sentOriginalMessages = released ++ kept)
      (freed : usage + ((p.state.releasedBy firstId).map Block.memory).getD 0 = p.state.memoryUsage)
      (reported : reports.map WriteAck.id =
        .range' firstId (ackedMessageCount p.state firstId)) (answers : event.answers = true) :
      Move env event start p { p with
        settled := p.settled && (p.state.releasedBy firstId).isNone
        reports := p.reports ++ reports
        state := { p.state with
          txs := signalled.txs, txInfos := signalled.txInfos
          writtenInDeferred := signalled.writtenInDeferred, ackStates := signalled.ackStates
          writtenInTx := signalled.writtenInTx.eraseAll
            (.range' firstId (max 1 (ackedMessageCount p.state firstId)))
          memoryUsage := usage
          bytesInflightCompressed := compressed, bytesInflightUncompressed := uncompressed
          sentPackedMessage := p.state.packedAfterAck firstId
          sentOriginalMessages := kept
          acked := p.state.acked ++ released.map OriginalMessage.toMessageRecord
          flushResults := results } }
  | reports {p : Point} {events : List SessionEvent} (pushed : Pushed p.state (.acks p.reports) events) :
      Move env event start p { p with reports := [], state := { p.state with events } }
  | configures {p : Point} {response : InitResponse} {supported established pending : Bool}
      {direct : Option Nat} {partition initSeqNo : Nat}
      (answers : event = .serverMessage start.connectionGeneration (.initResponse response))
      (untouched : p.state.sessionEstablished = start.sessionEstablished ∧
        p.state.connectPending = start.connectPending)
      (connects : established = p.state.sessionEstablished ∧ pending = true ∨
        established = true ∧ pending = p.state.connectPending) :
      Move env event start p { p with
        state := { p.state with
          batchingSupported := supported, directWriteToPartitionId := direct
          partitionId := partition, initSeqNo := p.state.initSeqNo.or (some initSeqNo)
          sessionEstablished := established, connectPending := pending } }
  /-- The first token of the session. -/
  | begins {p : Point} (first : p.state.firstTokenSent = false) :
      Move env event start p { p with
        due := p.due + 1
        state := { p.state with firstTokenSent := true, continuationTokenIssued := true } }
  | restarts {p : Point} {direct : Option Nat} (running : p.state.aborting = false)
      (idle : p.request = {}) :
      Move env event start p { p with
        state := { p.state with
          sessionEstablished := false, directWriteToPartitionId := direct, connectPending := true
          packedMessagesToSend := p.state.packedMessagesToSend ++ p.state.sentPackedMessage
          sentPackedMessage := []
          originalMessagesToSend := p.state.sentOriginalMessages ++ p.state.originalMessagesToSend
          sentOriginalMessages := [] } }
  | connects {p : Point} {pending : Bool} (running : p.state.aborting = false)
      (waiting : p.state.connectPending = true) :
      Move env event start p { p with
        state := { p.state with
          connectionGeneration := p.state.connectionGeneration + 1, connectPending := pending
          requests := [], ackedAtConnect := p.state.acked.length } }
  | releases {p : Point} {request memory usage : Nat}
      (found : p.state.pendingWrites[request]? = some memory)
      (freed : usage + memory = p.state.memoryUsage) :
      Move env event start p { p with
        settled := false
        state := { p.state with
          memoryUsage := usage, pendingWrites := p.state.pendingWrites.eraseIdx request } }
  | commits {p : Point} {index : Nat} {info : TransactionInfo}
      (found : p.state.txInfos[index]? = some info) (added : info.callbackAdded = true)
      (first : info.commitCalled = false)
      (unresolved : info.writeCount = info.ackCount → info.allAcksReceived = none) :
      Move env event start p { p with
        state := { p.state with
          txInfos := p.state.txInfos.modify index .commit
          txs := if info.writeCount = info.ackCount then p.state.txs.erase info.txId
            else p.state.txs } }

/-- The points that an event can lead to. -/
inductive At (env : Environment) (event : Event) (start : State) : Point → Prop where
  | start (sound : start.TxSound) : At env event start (.start event start)
  | move {p q : Point} (before : At env event start p) (moved : Move env event start p q) :
      At env event start q

/-! ## Where code throws or stops -/

/-- A flush compresses, and with it sends, before it clears the batch. -/
def Environment.Inline (env : Environment) : Prop :=
  env.settings.compressionExecutorIsAsync = false ∧ env.settings.codec ≠ .raw

/-- The events whose code may end in an exception of a user call or of the executor. -/
def Event.mayThrow : Event → Bool
  | .write _ _ | .wakeUp _ | .flush | .getInitSeqNo | .close | .compressed _ | .scheduledSend
  | .serverMessage _ (.initResponse _) => true
  | _ => false

/-- A flush hands the block to the server without compressing it. -/
def Skips (env : Environment) (event : Event) (start : State) : Prop :=
  env.settings.codec = .raw ∨ start.currentBatch.hasCodec = true ∨
    ∃ now message, event = .write now message ∧ message.codec.isSome = true

/-- What is known where code sends or compresses. -/
structure Sends (env : Environment) (event : Event) (start : State) (p : Point) : Prop where
  throws : event.mayThrow = true
  inline : p.flushing = true → env.Inline
  unsettled : p.settled = false → env.settings.compressionExecutorIsAsync = false ∧
    (p.flushing = true ∨ start.compressing ≠ [])
  due : p.due = 0 ∨ (∃ now message, event = .write now message) ∨ start.firstTokenSent = false
  skips : event.mayFlush = true → env.Inline ∨ Skips env event start

/-- An exception leaves the code at this point, and `after` is the state it leaves behind. -/
inductive Throws (env : Environment) (event : Event) (start : State) (p : Point) : State → Prop where
  | refused {block : Block} {front : OriginalMessage} {rest : List OriginalMessage}
      (sends : Sends env event start p) (packed : p.block = none)
      (ready : p.state.ReadyToSend env block front rest)
      (unsupported : p.state.batchingSupported = false) (several : 1 < block.messageCount) :
      Throws env event start p p.state
  | uncoded {block : Block} (sends : Sends env event start p) (held : p.block = some block)
      (empty : p.request = {}) (fails : env.compresses block = false) : Throws env event start p p.state
  | rejected (throws : event.mayThrow = true) (idle : p = { state := p.state }) :
      Throws env event start p p.state
  /-- The precommit callback finds a promise that is set already. -/
  | called {index : Nat} {info : TransactionInfo} (idle : p = { state := p.state })
      (found : p.state.txInfos[index]? = some info) (added : info.callbackAdded = true)
      (first : info.commitCalled = false) (complete : info.writeCount = info.ackCount)
      (resolved : info.allAcksReceived ≠ none) :
      Throws env event start p { p.state with
        txInfos := p.state.txInfos.modify index (fun info => { info with commitCalled := true }) }

/-- The assertions that relate the packed queues to the queues of original messages. -/
def Assertion.relatesQueues : Assertion → Bool
  | .noOriginalMessages | .lostOriginalMessages | .requestContextOriginals
  | .estimatedBlockOriginals | .sentBlockOriginals | .standardBlockCount | .retryPackedCount
  | .retryOriginalCount => true
  | _ => false

inductive Fails (env : Environment) (p : Point) : Assertion → Prop where
  | unready {assertion : Assertion} (unready : p.state.Unready env assertion) : Fails env p assertion
  | short {block : Block} {front : OriginalMessage} {rest : List OriginalMessage}
      {assertion : Assertion} (ready : p.state.ReadyToSend env block front rest)
      (few : p.state.originalMessagesToSend.length < block.messageCount)
      (which : assertion = .estimatedBlockOriginals ∨ assertion = .sentBlockOriginals) :
      Fails env p assertion
  | uncounted {block : Block} {front : OriginalMessage} {rest : List OriginalMessage}
      (ready : p.state.ReadyToSend env block front rest) (none : block.messageCount = 0) :
      Fails env p .standardBlockCount
  /-- More is released than was charged. -/
  | overdrawn {memory : Nat}
      (held : (∃ block, p.block = some block ∧ memory = block.originalMemoryUsage) ∨
        (∃ block ∈ p.state.sentPackedMessage, memory = block.memory) ∨
        memory ∈ p.state.pendingWrites)
      (exceeds : p.state.memoryUsage < memory) : Fails env p .memoryUsageCovers
  | apart {assertion : Assertion} (apart : assertion.relatesQueues = false)
      (covered : assertion ≠ .memoryUsageCovers) : Fails env p assertion

/-- The contract of code that walks from point to point; `ends` is the point it ends at. -/
@[reducible] def walk (env : Environment) (event : Event) (start : State) (ends : α → State → Point) :
    Contract Exception Assertion State α where
  returns value after := At env event start (ends value after)
  raises _ after := ∃ p, At env event start p ∧ Throws env event start p after
  stops assertion := ∃ p, At env event start p ∧ Fails env p assertion

@[reducible] def walkAnd (env : Environment) (event : Event) (start : State) (known : α → State → Prop)
    (ends : α → State → Point) : Contract Exception Assertion State α where
  returns value after := known value after ∧ At env event start (ends value after)
  raises _ after := ∃ p, At env event start p ∧ Throws env event start p after
  stops assertion := ∃ p, At env event start p ∧ Fails env p assertion

end YdbSdk.Topic.WriteSession
