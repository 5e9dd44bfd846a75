import YdbSdk.Topic.WriteSession.RequestSize

namespace YdbSdk.Topic.WriteSession

open YdbSdk.Control YdbSdk.Data

/-! # Batching, compression and sending

The functions that move an accepted message from the current batch to the wire.
All of them run under the session lock.
-/

def getSeqNoImpl (id : Nat) : Session Nat := do
  let state ← .get
  match state.autoSeqNoMode, state.initSeqNo with
  | none, _ => .stop .autoSeqNoModeKnown
  | some _, none => .stop .initSeqNoKnown
  | some auto, some initSeqNo => pure (if auto then id + initSeqNo else id)

def getIdImpl (seqNo : Nat) : Session Nat := do
  let state ← .get
  match state.autoSeqNoMode, state.initSeqNo with
  | none, _ => .stop .autoSeqNoModeKnown
  | some false, _ => pure seqNo
  | some true, none => .stop .seqNoAboveInitSeqNo
  | some true, some initSeqNo => do
      .require (decide (initSeqNo < seqNo)) .seqNoAboveInitSeqNo
      pure (seqNo - initSeqNo)

def onMemoryUsageChangedImpl (diff : Int) : Session Unit := do
  let usage ← .read State.memoryUsage
  if 0 ≤ diff then
    .update (fun state => { state with memoryUsage := usage + diff.toNat })
  else do
    .require (decide (diff.natAbs ≤ usage)) .memoryUsageCovers
    .update (fun state => { state with memoryUsage := usage - diff.natAbs })

def tryIssueContinuationTokenImpl (env : Environment) : Session Bool := do
  let state ← .get
  if state.aborting || state.continuationTokenIssued ||
      decide (env.settings.maxMemoryUsage < state.memoryUsage) then
    pure false
  else do
    .update (fun state => { state with continuationTokenIssued := true })
    pure true

def pushEvent (event : SessionEvent) : Session Unit :=
  .update (fun state =>
    if state.closed.isSome then state else { state with events := state.events ++ [event] })

/-! ## Closing -/

def updateTxInfo (index : Nat) (change : TransactionInfo → TransactionInfo) : Session Unit :=
  .update (fun state => { state with txInfos := state.txInfos.modify index change })

def TransactionInfo.resolve (status : Status) (info : TransactionInfo) : TransactionInfo :=
  { info with allAcksReceived := some status }

/-- `AllAcksReceived.SetValue`: setting a value twice throws. -/
def setAllAcksReceived (index : Nat) (status : Status) : Session Unit := do
  let infos ← .read State.txInfos
  match infos[index]?.bind TransactionInfo.allAcksReceived with
  | some _ => .raise .valueAlreadySet
  | none => updateTxInfo index (.resolve status)

def cancelTransaction (index : Nat) : Session Unit := do
  updateTxInfo index (fun info => { info with isActive := false })
  let infos ← .read State.txInfos
  .when (infos[index]?.any (fun info => info.writeCount != info.ackCount))
    (setAllAcksReceived index .sessionExpired)

def cancelTransactions : Session Unit := do
  let txs ← .read State.txs
  .forEach txs (fun entry => cancelTransaction entry.2)
  .update (fun state => { state with txs := [] })

def onUnackedAbort (ackState unackedCount : Nat) : Session Unit := do
  if unackedCount = 0 then pure ()
  else do
    let counters := ((← .read State.ackStates).find ackState).getD {}
    .require (decide (counters.ackCount + unackedCount ≤ counters.writeCount)) .deferredAbortCount
    let reopened : AckState :=
      if counters.waitCalled then
        { counters with
          isSealed := false, waitCalled := false,
          allAcksReceived := counters.allAcksReceived.or (some .sessionExpired) }
      else counters
    .update (fun state => { state with
      ackStates := state.ackStates.insert ackState
        { reopened with writeCount := counters.writeCount - unackedCount } })

def cancelDeferredPublications : Session Unit := do
  let written ← .read State.writtenInDeferred
  let unackedByState := written.foldl (fun (counts : Assoc Nat Nat) entry =>
    counts.insert entry.2.ackState
      ((counts.find entry.2.ackState).getD 0 + entry.2.unackedCount)) []
  .update (fun state => { state with writtenInDeferred := [] })
  .forEach unackedByState (fun entry => onUnackedAbort entry.1 entry.2)

def completeFlushes (value : Bool) (messages : List OriginalMessage) : List (Nat × Bool) :=
  messages.filterMap (fun message => message.flushPromise.map (fun promise => (promise, value)))

def OriginalMessage.withoutPromise (message : OriginalMessage) : OriginalMessage :=
  { message with flushPromise := none }

def abortFlushPromisesImpl : Session Unit :=
  .update (fun state => { state with
    flushResults := state.flushResults ++
      completeFlushes false (state.originalMessagesToSend ++ state.sentOriginalMessages)
    originalMessagesToSend := state.originalMessagesToSend.map .withoutPromise
    sentOriginalMessages := state.sentOriginalMessages.map .withoutPromise })

def abortImpl : Session Unit := do
  if ← .read State.aborting then pure ()
  else do
    .update (fun state => { state with
      aborting := true, ackedAtAbort := some state.acked.length })
    cancelTransactions
    cancelDeferredPublications
    abortFlushPromisesImpl

def closeImpl (status : Status) : Session Unit := do
  .update (fun state => { state with closed := state.closed.or (some status) })
  abortImpl

/-! ## Sending -/

def isReadyToSendNextImpl (env : Environment) : Session Bool := do
  let state ← .get
  if !state.sessionEstablished then pure false
  else if state.aborting then pure false
  else
    match state.top env, state.originalMessagesToSend with
    | none, _ => pure false
    | some _, [] => .stop .noOriginalMessages
    | some top, front :: _ => do
        .require (decide (front.id ≤ top.offset)) .lostOriginalMessages
        pure (top.offset == front.id)

def WriteContext.transactionId : WriteContext → Option TransactionId
  | .transaction id => some id
  | _ => none

def deferredPublishIdentityChanged (request message : WriteContext) : Bool :=
  match request, message with
  | .deferred requested, .deferred written =>
    requested.intPublicationId != written.intPublicationId ||
      requested.extPublicationId != written.extPublicationId
  | .deferred _, _ => true
  | _, .deferred _ => true
  | _, _ => false

/-- Whether the request must be closed before a message of this context:
`TxIsChanged` or `DeferredPublishIsChanged`. -/
def writeContextChanged (request : WriteRequest) (message : WriteContext) : Bool :=
  !request.messages.isEmpty &&
    (request.context.transactionId != message.transactionId ||
      deferredPublishIdentityChanged request.context message)

/-- Move `count` original messages from the queue of messages to send to the
caller, as both block functions do before they queue them as sent. -/
def takeOriginals : Nat → Session (List OriginalMessage)
  | 0 => pure []
  | count + 1 => do
      match ← .read State.originalMessagesToSend with
      | [] => .stop .sentBlockOriginals
      | front :: rest => do
          .update (fun state => { state with originalMessagesToSend := rest })
          let others ← takeOriginals count
          pure (front :: others)

def appendSent (messages : List OriginalMessage) : Session Unit :=
  .update (fun state => { state with
    sentOriginalMessages := state.sentOriginalMessages ++ messages })

/-- The request with one more message; the first message sets the context. -/
def WriteRequest.addMessage (request : WriteRequest) (first : MessageRecord)
    (message : MessageData) : WriteRequest :=
  { request with
    context := if request.messages.isEmpty then first.writeContext else request.context
    messages := request.messages ++ [message] }

def sendBatchBlock (block : Block) (request : WriteRequest) : Session WriteRequest := do
  if !(← .read State.batchingSupported) then
    .raise (.contractViolation "Server does not support messages batching")
  else
    match ← takeOriginals block.messageCount with
    | [] => .stop .sentBlockOriginals
    | first :: others => do
        let last := (first :: others).getLast (List.cons_ne_nil first others)
        let seqNo ← getSeqNoImpl last.id
        let records := (first :: others).map OriginalMessage.toMessageRecord
        appendSent (first :: others)
        pure (request.addMessage first.toMessageRecord {
          seqNo, createdAt := first.createdAt
          metadataItems := batchMetadataItems first.toMessageRecord records.tail
          uncompressedSize := block.originalSize, data := block.data, originals := records })

def sendStandardBlock (block : Block) (request : WriteRequest) : Session WriteRequest := do
  .require (block.messageCount == 1) .standardBlockCount
  match ← takeOriginals 1 with
  | [] => .stop .sentBlockOriginals
  | message :: _ => do
      let seqNo ← getSeqNoImpl message.id
      appendSent [message]
      pure (request.addMessage message.toMessageRecord {
        seqNo, createdAt := message.createdAt, metadataItems := message.messageMeta
        uncompressedSize := block.originalSize
        data := if block.compressed then block.data
          else block.originalDataRefs.getLastD []
        originals := [message.toMessageRecord] })

def sendBlock (block : Block) (request : WriteRequest) : Session WriteRequest :=
  if block.messageCount > 1 then sendBatchBlock block request
  else sendStandardBlock block request

def popPacked (block : Block) : Session Unit :=
  .update (fun state => { state with
    packedMessagesToSend := state.packedMessagesToSend.erase block
    sentPackedMessage := state.sentPackedMessage ++ [block]
    heapPops := state.heapPops + 1 })

/-- The inner loop of `SendImpl`: it adds ready blocks to one request while codec,
context and size allow.  Each turn pops a block, so the number of packed blocks
bounds the turns. -/
def fillRequest (env : Environment) :
    Nat → WriteRequest → RequestSizeLimiter → Session WriteRequest
  | 0, request, _ => pure request
  | turns + 1, request, limiter => do
      if ← isReadyToSendNextImpl env then
        let state ← .get
        match state.top env, state.originalMessagesToSend with
        | some block, front :: rest =>
          if !request.messages.isEmpty && request.codec != block.codecId then pure request
          else if writeContextChanged request front.writeContext then pure request
          else
            match estimateTopicWriteRequestBlockSize block
                ((front :: rest).map OriginalMessage.toMessageRecord) limiter.empty with
            | none => .stop .estimatedBlockOriginals
            | some blockSize =>
              if !limiter.canAdd blockSize then pure request
              else do
                let extended ← sendBlock block { request with codec := block.codecId }
                popPacked block
                fillRequest env turns extended (limiter.add blockSize)
        | some _, [] => .stop .requestContextOriginals
        | none, _ => pure request
      else pure request

def writeToProcessorImpl (env : Environment) (request : WriteRequest) : Session Unit := do
  if ← .read State.aborting then pure ()
  else do
    onMemoryUsageChangedImpl (env.spaceUsedLong request)
    .update (fun state => { state with
      pendingWrites := state.pendingWrites ++ [env.spaceUsedLong request]
      requests := state.requests ++ [request] })

/-- `UpdateTokenIfNeededImpl`: a failing credentials provider closes the session. -/
def updateTokenIfNeededImpl (env : Environment) : Session Unit := do
  let state ← .get
  if !state.sessionEstablished || state.aborting then pure ()
  else if env.tokenUpdateFails state.heapPops then closeImpl .clientUnauthenticated
  else pure ()

def sendRequests (env : Environment) : Nat → Session Unit
  | 0 => pure ()
  | turns + 1 => do
      if ← isReadyToSendNextImpl env then
        let blocks ← .read (fun state => state.packedMessagesToSend.length)
        let request ← fillRequest env blocks {}
          { envelopeFieldNumber := 2, maxSize := env.maxGrpcMessageSize }
        updateTokenIfNeededImpl env
        writeToProcessorImpl env request
        sendRequests env turns
      else pure ()

def sendImpl (env : Environment) : Session Unit := do
  let blocks ← .read (fun state => state.packedMessagesToSend.length)
  sendRequests env blocks

/-! ## Compression -/

/-- `CompressWriteBlock` of the codec the session is set to.  The Kafka codec
leaves a block of one message as it is. -/
def compressWriteBlock (env : Environment) (block : Block) : Session Block := do
  if env.settings.codec = .kafkaBatch ∧ block.originalDataRefs.length = 1 then pure block
  else
    match env.encode env.settings.codec block.originalDataRefs with
    | none => .raise .unsupportedCodec
    | some data => do
        .require (!data.isEmpty) .compressedDataNotEmpty
        pure { block with data, compressed := true, codecId := env.settings.codec.id }

def onCompressedImpl (env : Environment) (block : Block) : Session Unit := do
  .when block.compressed do
    onMemoryUsageChangedImpl ((block.data.length : Int) - block.originalMemoryUsage)
    .update (fun state => { state with
      bytesInflightUncompressed := state.bytesInflightUncompressed - block.originalSize
      bytesInflightCompressed := state.bytesInflightCompressed + block.data.length })
  .update (fun state => { state with
    packedMessagesToSend := state.packedMessagesToSend ++ [block] })
  if env.settings.compressionExecutorIsAsync then
    .update (fun state => { state with sendImplScheduled := true })
  else sendImpl env

/-- `OnCompressed`: synchronous compression still holds the lock, so it leaves the
token event to a scheduled callback. -/
def onCompressed (env : Environment) (block : Block) : Session Unit := do
  onCompressedImpl env block
  let readyToAccept ← tryIssueContinuationTokenImpl env
  .when readyToAccept (
    if env.settings.compressionExecutorIsAsync then pushEvent .readyToAccept
    else .update (fun state => { state with
      scheduledTokenEvents := state.scheduledTokenEvents + 1 }))

def compressionTask (env : Environment) (block : Block) : Session Unit := do
  .require (!block.compressed) .blockNotCompressed
  let packed ← compressWriteBlock env block
  onCompressed env packed

def compressImpl (env : Environment) (block : Block) : Session Unit := do
  if ← .read State.aborting then pure ()
  else do
    let _baseSequence ← getSeqNoImpl block.offset
    if env.settings.compressionExecutorIsAsync then
      .update (fun state => { state with compressing := state.compressing ++ [block] })
    else compressionTask env block

/-! ## Batches -/

def MessageBatch.hasCodec (batch : MessageBatch) : Bool :=
  match batch.messages with
  | [] => false
  | front :: _ => front.codec.isSome

def MessageBatch.empty (batch : MessageBatch) : Bool :=
  batch.currentSize == 0 && batch.messages.isEmpty

def MessageBatch.add (batch : MessageBatch) (now : Instant) (message : Message) : MessageBatch :=
  { batch with
    startedAt := if batch.startedAt = 0 then now else batch.startedAt
    currentSize := batch.currentSize +
      if message.codec.isSome then message.originalSize else message.dataRef.length
    messages := batch.messages ++ [message]
    acquired := false }

def MessageBatch.acquire (batch : MessageBatch) : MessageBatch :=
  match batch.acquired, batch.messages.getLast? with
  | false, some last => { batch with data := batch.data ++ last.dataRef, acquired := true }
  | _, _ => batch

def messageAttributeKey : String := "__key"

def getMessageKey (messageMeta : MessageMeta) : Option String :=
  Assoc.find messageAttributeKey messageMeta

/-- Point the payload views at consecutive parts of the buffer; `none` where the
source asserts that the buffer is long enough. -/
def rebaseDataRefs (data : Bytes) : Nat → List Message → Option (List Message)
  | _, [] => some []
  | dataOffset, message :: rest =>
    if dataOffset + message.dataRef.length ≤ data.length then do
      let others ← rebaseDataRefs data (dataOffset + message.dataRef.length) rest
      some ({ message with
        dataRef := (data.drop dataOffset).take message.dataRef.length } :: others)
    else none

/-- The body of the loop of `WriteBatchImpl`: one message joins the block and is
queued as an original message. -/
def addToBlock (batchSize : Nat) (block : Block) (message : Message) : Session Block := do
  let joined : Block := { block with
    offset := if block.messageCount = 0 then message.id else block.offset
    messageCount := block.messageCount + 1
    originalSize := block.originalSize + message.dataRef.length
    originalMemoryUsage := block.originalMemoryUsage + message.dataRef.length
    originalDataRefs := block.originalDataRefs ++ [message.dataRef]
    createdAt := block.createdAt ++ [message.createdAt]
    messageKeys := block.messageKeys ++ [getMessageKey message.messageMeta] }
  let coded ← setMessageCodec joined
  .update (fun state =>
    if coded.compressed then
      { state with bytesInflightCompressed := state.bytesInflightCompressed + message.dataRef.length }
    else
      { state with
        bytesInflightUncompressed := state.bytesInflightUncompressed + message.dataRef.length })
  .update (fun state => { state with
    originalMessagesToSend := state.originalMessagesToSend ++ [{ toMessageRecord := message.toRecord }] })
  pure coded
where
  /-- A message that is already encoded must be alone in its batch. -/
  setMessageCodec (joined : Block) : Session Block :=
    match message.codec with
    | none => pure joined
    | some codec => do
        .require (batchSize == 1) .encodedMessageAlone
        pure { joined with
          codecId := codec.id, originalSize := message.originalSize, compressed := true }

def buildBlock (batchSize : Nat) : List Message → Block → Session Block
  | [], block => pure block
  | message :: rest, block => do
      let joined ← addToBlock batchSize block message
      buildBlock batchSize rest joined

def packBlock (env : Environment) (skipCompression : Bool) (block : Block) : Session Unit :=
  if skipCompression then
    .update (fun state => { state with
      packedMessagesToSend := state.packedMessagesToSend ++ [block] })
  else compressImpl env block

/-- `WriteBatchImpl`.  `MaxBlockSize` is the largest `size_t`, so the batch makes
one block.  The batch is cleared only after the block was compressed, and with a
synchronous executor compression also sends. -/
def writeBatchImpl (env : Environment) : Session Unit := do
  let batch := (← .read State.currentBatch).acquire
  .require (decide (batch.messages.length ≤ env.settings.batchFlushMessageCount)) .batchMessageCount
  match rebaseDataRefs batch.data 0 batch.messages with
  | none => .stop .batchDataRefs
  | some messages => do
      let skipCompression := env.settings.codec == .raw || batch.hasCodec
      let block ← buildBlock messages.length messages {}
      .update (fun state => { state with
        currentBatch := { batch with data := [], messages := messages.map .movedFrom } })
      packBlock env skipCompression { block with data := batch.data }
      .update (fun state => { state with currentBatch := {} })
      .when skipCompression (sendImpl env)

def flushRequired (env : Environment) (now : Instant) (batch : MessageBatch) : Bool :=
  decide (env.settings.batchFlushInterval ≤ now - batch.startedAt) ||
    env.settings.batchFlushSizeBytes.any (fun limit =>
      limit == 0 || decide (limit ≤ batch.currentSize)) ||
    decide (env.settings.batchFlushMessageCount ≤ batch.messages.length) ||
    batch.hasCodec

def flushWriteIfRequiredImpl (env : Environment) (now : Instant) : Session Unit := do
  let batch ← .read State.currentBatch
  .when (!batch.empty && !batch.flushRequested) do
    .update (fun state => { state with currentBatch := batch.acquire })
    .when (flushRequired env now batch.acquire) (writeBatchImpl env)

end YdbSdk.Topic.WriteSession
