import YdbSdk.Topic.WriteSession.Send

namespace YdbSdk.Topic.WriteSession

open YdbSdk.Control YdbSdk.Data

/-! # The write session as a process

User calls, server messages, connection changes and executor tasks, each taken
under the session lock and therefore atomic.  The server and the network are not
assumed to behave: any message may come at any time.
-/

/-- The transaction a message is written in, and whether it still takes precommit
callbacks. -/
structure Transaction where
  id : TransactionId
  changesAreAccepted : Bool := true
deriving DecidableEq

structure WriteMessage where
  data : Bytes
  codec : Option Codec := none
  originalSize : Nat := 0
  seqNo : Option Nat := none
  createTimestamp : Option Instant := none
  messageMeta : MessageMeta := []
  tx : Option Transaction := none
  deferredPublication : Option DeferredPublication := none
deriving DecidableEq

def maxExtPublicationIdLength : Nat := 2048

def deferredPublicationMessageInvalid (message : WriteMessage) : Bool :=
  match message.deferredPublication with
  | none => false
  | some publication =>
    message.tx.isSome || publication.intPublicationId == 0 ||
      publication.extPublicationId.any (fun ext =>
        decide (maxExtPublicationIdLength < ext.utf8ByteSize))

def WriteMessage.writeContext (message : WriteMessage) : WriteContext :=
  match message.deferredPublication, message.tx with
  | some publication, _ => .deferred publication
  | none, some tx => .transaction tx.id
  | none, none => .plain

/-! ## Transactions -/

def getOrCreateTxInfo (txId : TransactionId) : Session Nat := do
  let state ← .get
  match state.txs.find txId with
  | some index => pure index
  | none => do
      let index := state.txInfos.length
      .update (fun state => { state with
        txs := state.txs.insert txId index
        txInfos := state.txInfos ++ [{ txId }] })
      pure index

/-- `TrySubscribeOnTransactionCommit`.  The object is marked as subscribed before
the callback is added, and adding it throws once the transaction is closing. -/
def trySubscribeOnTransactionCommit (tx : Option Transaction) : Session Unit :=
  match tx with
  | none => pure ()
  | some tx => do
      let index ← getOrCreateTxInfo tx.id
      let infos ← .read State.txInfos
      if infos[index]?.any (fun info => info.subscribed) then pure ()
      else do
        updateTxInfo index (fun info => { info with
          isActive := true, subscribed := true, allAcksReceived := none })
        if tx.changesAreAccepted then
          updateTxInfo index (fun info => { info with callbackAdded := true })
        else .raise (.contractViolation "Changes are no longer accepted")

def precommitCallback (index : Nat) : Session Unit := do
  let infos ← .read State.txInfos
  match infos[index]?.filter TransactionInfo.callbackAdded with
  | none => pure ()
  | some info => do
      .require (!info.commitCalled) .commitCalledOnce
      updateTxInfo index (fun info => { info with commitCalled := true })
      if info.writeCount = info.ackCount then do
        setAllAcksReceived index .success
        .update (fun state => { state with txs := state.txs.erase info.txId })
        updateTxInfo index (fun info => { info with precommit := some .allAcksReceived })
      else if info.isActive then
        updateTxInfo index (fun info => { info with precommit := some .allAcksReceived })
      else
        updateTxInfo index (fun info => { info with precommit := some (.ready .sessionExpired) })

def onDeferredAck (ackState : Nat) : Session Unit := do
  let counters := ((← .read State.ackStates).find ackState).getD {}
  .require (decide (counters.ackCount + 1 ≤ counters.writeCount)) .deferredAckCount
  let finished := counters.writeCount == counters.ackCount + 1 && counters.waitCalled
  .update (fun state => { state with
    ackStates := state.ackStates.insert ackState { counters with
      ackCount := counters.ackCount + 1
      allAcksReceived :=
        if finished then counters.allAcksReceived.or (some .success)
        else counters.allAcksReceived } })

def trySignalAllAcksReceived (seqNo : Nat) : Session Unit := do
  let state ← .get
  match state.writtenInDeferred.find seqNo, state.writtenInTx.find seqNo with
  | some deferred, _ => do
      onDeferredAck deferred.ackState
      .require (decide (0 < deferred.unackedCount)) .deferredUnacked
      .update (fun state => { state with
        writtenInDeferred :=
          if deferred.unackedCount = 1 then state.writtenInDeferred.erase seqNo
          else state.writtenInDeferred.insert seqNo
            { deferred with unackedCount := deferred.unackedCount - 1 } })
  | none, none => pure ()
  | none, some txId => do
      let index ← getOrCreateTxInfo txId
      updateTxInfo index (fun info => { info with ackCount := info.ackCount + 1 })
      let infos ← .read State.txInfos
      .when (infos[index]?.any (fun info => info.commitCalled && info.writeCount == info.ackCount)) do
        setAllAcksReceived index .success
        .update (fun state => { state with txs := state.txs.erase txId })

/-! ## User calls -/

def getNextIdImpl (env : Environment) (seqNo : Option Nat) : Session Nat := do
  let nextId := (← .read State.nextId) + 1
  .update (fun state => { state with
    nextId, autoSeqNoMode := state.autoSeqNoMode.or (some seqNo.isNone) })
  let auto := (← .read State.autoSeqNoMode).getD true
  match seqNo with
  | some given =>
    if !env.settings.deduplicationEnabled then
      .raise (.contractViolation
        "Cannot provide SeqNo on Write() when deduplication is disabled")
    else if auto then
      .raise (.contractViolation
        "Cannot call write() with defined SeqNo on WriteSession running in auto-seqNo mode")
    else pure given
  | none =>
    if !auto then
      .raise (.contractViolation
        "Cannot call write() without defined SeqNo on WriteSession running in manual-seqNo mode")
    else pure nextId

/-- Register a write with the transaction or the deferred publication it belongs
to: the position of the transaction object, or that the publication is sealed. -/
def registerWrite (seqNo : Nat) : WriteContext → Session (Bool × Option Nat)
  | .plain => pure (true, none)
  | .transaction txId => do
      let index ← getOrCreateTxInfo txId
      updateTxInfo index (fun info => { info with writeCount := info.writeCount + 1 })
      .update (fun state => { state with
        writtenInTx := state.writtenInTx.insert seqNo txId })
      pure (true, some index)
  | .deferred publication => do
      let state ← .get
      let counters := (state.ackStates.find publication.ackState).getD {}
      if counters.isSealed then pure (false, none)
      else do
        let inFlight := (state.writtenInDeferred.find seqNo).getD
          { ackState := publication.ackState
            intPublicationId := publication.intPublicationId
            extPublicationId := publication.extPublicationId
            unackedCount := 0 }
        .update (fun state => { state with
          ackStates := state.ackStates.insert publication.ackState
            { counters with writeCount := counters.writeCount + 1 }
          writtenInDeferred := state.writtenInDeferred.insert seqNo
            { inFlight with unackedCount := inFlight.unackedCount + 1 } })
        pure (true, none)

def acceptMessage (now : Instant) (message : Message) (txInfo : Option Nat) : Session Unit :=
  .update (fun state => { state with
    currentBatch := state.currentBatch.add now message
    accepted := state.accepted ++ [{ record := message.toRecord, txInfo }] })

def writeInternal (env : Environment) (now : Instant) (message : WriteMessage) : Session Unit := do
  if deferredPublicationMessageInvalid message then closeImpl .badRequest
  else do
    let writeContext := message.writeContext
    let batch ← .read State.currentBatch
    .when (batch.messages.head?.any (fun front => !front.writeContext.same writeContext))
      (writeBatchImpl env)
    trySubscribeOnTransactionCommit message.tx
    let seqNo ← getNextIdImpl env message.seqNo
    let (registered, txInfo) ← registerWrite seqNo writeContext
    if !registered then closeImpl .badRequest
    else do
      acceptMessage now {
        id := seqNo, createdAt := message.createTimestamp.getD now, dataRef := message.data
        codec := message.codec, originalSize := message.originalSize
        messageMeta := message.messageMeta, writeContext } txInfo
      .update (fun state => { state with continuationTokenIssued := false })
      onMemoryUsageChangedImpl message.data.length
      let readyToAccept ← tryIssueContinuationTokenImpl env
      flushWriteIfRequiredImpl env now
      .when readyToAccept (pushEvent .readyToAccept)

/-- `Flush`: the promise rides on the last message that is not acknowledged. -/
def flush (env : Environment) : Session Unit := do
  if ← .read State.aborting then pure ()
  else do
    let batch ← .read State.currentBatch
    .when (!batch.empty) (writeBatchImpl env)
    let promise ← .read State.nextFlushPromise
    .update (fun state => { state with
      nextFlushPromise := promise + 1
      originalMessagesToSend := attach promise state.originalMessagesToSend
      sentOriginalMessages :=
        if state.originalMessagesToSend.isEmpty then attach promise state.sentOriginalMessages
        else state.sentOriginalMessages })
where
  attach (promise : Nat) : List OriginalMessage → List OriginalMessage
    | [] => []
    | [last] => [{ last with flushPromise := last.flushPromise.or (some promise) }]
    | message :: rest => message :: attach promise rest

/-- `GetInitSeqNo` fixes the manual mode when numbers are validated. -/
def getInitSeqNo (env : Environment) : Session Unit := do
  if !env.settings.deduplicationEnabled then
    .raise (.contractViolation "Cannot call GetInitSeqNo when deduplication is disabled")
  else
    let mode ← .read State.autoSeqNoMode
    .when env.settings.validateSeqNo (
      if mode = some true then
        .raise (.contractViolation "Cannot call GetInitSeqNo in Auto SeqNo mode")
      else .update (fun state => { state with autoSeqNoMode := some false }))

/-! ## Server messages -/

/-- The acknowledged originals leave the queue of sent messages one by one. -/
def releaseOriginals : Nat → Nat → Session Unit
  | _, 0 => pure ()
  | id, count + 1 => do
      match ← .read State.sentOriginalMessages with
      | [] => .stop .acknowledgedOriginals
      | front :: rest => do
          .require (front.id == id) .acknowledgedId
          .update (fun state => { state with
            writtenInTx := state.writtenInTx.erase id
            sentOriginalMessages := rest
            acked := state.acked ++ [front.toMessageRecord]
            flushResults := state.flushResults ++ completeFlushes true [front] })
          releaseOriginals (id + 1) count

def ackedMessageCount (state : State) (id : Nat) : Nat :=
  match state.sentPackedMessage with
  | front :: _ => if front.offset = id then front.messageCount else 1
  | [] => 1

/-- Drop the block that `id` starts, with its memory and its inflight bytes. -/
def releasePacked (env : Environment) (id : Nat) (sentFront : OriginalMessage) : Session Bool := do
  match ← .read State.sentPackedMessage with
  | front :: rest =>
    if front.offset = id then do
      onMemoryUsageChangedImpl
        (-((if front.compressed then front.data.length else front.originalMemoryUsage : Nat) : Int))
      let token ← tryIssueContinuationTokenImpl env
      .update (fun state => { state with
        sentPackedMessage := rest
        bytesInflightCompressed := state.bytesInflightCompressed -
          (if front.compressed then front.data.length else 0 : Nat)
        bytesInflightUncompressed := state.bytesInflightUncompressed -
          (if front.compressed then 0 else front.originalSize : Nat) })
      pure token
    else unpacked
  | [] => unpacked
where
  unpacked : Session Bool := do
    .update (fun state => { state with
      bytesInflightUncompressed := state.bytesInflightUncompressed - sentFront.size })
    pure false

def cleanupOnAcknowledgedImpl (env : Environment) (id : Nat) : Session Bool := do
  match ← .read State.sentOriginalMessages with
  | [] => .stop .frontOfEmptySentQueue
  | sentFront :: _ => do
      let count ← .read (fun state => ackedMessageCount state id)
      let token ← releasePacked env id sentFront
      let state ← .get
      .require (decide (0 ≤ state.bytesInflightCompressed)) .bytesInflightCompressed
      .require (decide (0 ≤ state.bytesInflightUncompressed)) .bytesInflightUncompressed
      -- A block of one message (or none at all) releases the front message.
      releaseOriginals id (if 1 < count then count else 1)
      pure token

structure ServerAck where
  seqNo : Nat
  status : AckStatus
deriving DecidableEq

def AckStatus.baseOffset : AckStatus → Nat
  | .written offset => offset
  | _ => 0

/-- One acknowledgement of a write response: what is reported, and whether a token
was issued. -/
def processAck (env : Environment) (ack : ServerAck) : Session (List WriteAck × Bool) := do
  let firstMsgId ← getIdImpl ack.seqNo
  let ackCount ← .read (fun state => ackedMessageCount state firstMsgId)
  .forEach (.range ackCount) (fun i => trySignalAllAcksReceived (firstMsgId + i))
  let partitionId ← .read State.partitionId
  let token ← cleanupOnAcknowledgedImpl env firstMsgId
  pure ((List.range ackCount).map (fun i =>
    { id := firstMsgId + i, status := ack.status, offset := ack.status.baseOffset + i, partitionId }),
    token)

/-- The loop over the acknowledgements: what is reported, and one token event for
each token issued. -/
def processAcks (env : Environment) : List ServerAck → Session (List WriteAck × List SessionEvent)
  | [] => pure ([], [])
  | ack :: rest => do
      let (reports, token) ← processAck env ack
      let (more, tokens) ← processAcks env rest
      pure (reports ++ more, (if token then [.readyToAccept] else []) ++ tokens)

/-- A write response; its events are pushed when all of it is processed. -/
def processWriteResponse (env : Environment) (acks : List ServerAck) : Session Unit := do
  let (reports, tokens) ← processAcks env acks
  .forEach tokens pushEvent
  pushEvent (.acks reports)

structure InitResponse where
  lastSeqNo : Nat
  partitionId : Nat := 0
  isBatchingSupported : Bool := false
deriving DecidableEq

/-- The init response.  A direct write session that has just learnt its partition
connects again, to the node of that partition. -/
def processInitResponse (env : Environment) (response : InitResponse) : Session Unit := do
  let previous ← .read State.directWriteToPartitionId
  let unsupported ← .read State.directWriteUnsupported
  let direct := env.settings.directWriteToPartition && !unsupported &&
    env.settings.partitionId.isNone
  let lastSeqNo := if env.settings.deduplicationEnabled then response.lastSeqNo else 0
  .update (fun state => { state with
    batchingSupported := response.isBatchingSupported
    directWriteToPartitionId :=
      if direct then some response.partitionId else state.directWriteToPartitionId
    partitionId := response.partitionId
    initSeqNo := state.initSeqNo.or (some lastSeqNo) })
  if direct && previous.isNone then
    .update (fun state => { state with connectPending := true })
  else do
    .update (fun state => { state with sessionEstablished := true })
    let firstTokenSent ← .read State.firstTokenSent
    .when (!firstTokenSent) (
      .update (fun state => { state with
        firstTokenSent := true, continuationTokenIssued := true }))
    sendImpl env
    -- The events of a server message are pushed when all of it is processed.
    .when (!firstTokenSent) (pushEvent .readyToAccept)

def resetForRetryImpl : Session Unit := do
  let before ← .get
  .update (fun state => { state with
    sessionEstablished := false
    packedMessagesToSend := state.packedMessagesToSend ++ state.sentPackedMessage
    sentPackedMessage := []
    originalMessagesToSend := state.sentOriginalMessages ++ state.originalMessagesToSend
    sentOriginalMessages := [] })
  let after ← .get
  .require (after.packedMessagesToSend.length ==
    before.packedMessagesToSend.length + before.sentPackedMessage.length) .retryPackedCount
  .require (after.originalMessagesToSend.length ==
    before.originalMessagesToSend.length + before.sentOriginalMessages.length) .retryOriginalCount

/-- `RestartImpl` and the close that follows when the retry policy gives up. -/
def restartImpl (status : Status) (retry switchPartition : Bool) : Session Unit := do
  if ← .read State.aborting then pure ()
  else do
    .update (fun state => { state with
      sessionEstablished := false
      directWriteToPartitionId :=
        if switchPartition then none else state.directWriteToPartitionId })
    if retry then do
      resetForRetryImpl
      .update (fun state => { state with connectPending := true })
    else closeImpl status

/-- The next connection.  `ConnectToPreferredPartitionLocation` first describes the
partition and leaves `Connect` due; without a client context the session aborts. -/
def connect (describePartition clientContext : Bool) : Session Unit := do
  let state ← .get
  if state.aborting || !state.connectPending then pure ()
  else if !clientContext then abortImpl
  else
    .update (fun state => { state with
      connectionGeneration := state.connectionGeneration + 1
      connectPending := describePartition
      requests := []
      ackedAtConnect := state.acked.length })

inductive ServerMessage where
  | initResponse (response : InitResponse)
  | writeResponse (acks : List ServerAck)
deriving DecidableEq

inductive Event where
  /-- `Write` or `WriteEncoded` -/
  | write (now : Instant) (message : WriteMessage)
  /-- `HandleWakeUpImpl` -/
  | wakeUp (now : Instant)
  | flush
  | getInitSeqNo
  /-- `Close` before it waits, and its end -/
  | close
  | closeTimedOut
  /-- The compression task at this place of the executor queue runs. -/
  | compressed (task : Nat)
  /-- The scheduled `SendImpl` runs. -/
  | scheduledSend
  | scheduledToken
  | connect (describePartition clientContext : Bool)
  /-- A connection error, and what the retry policy decides. -/
  | connectionError (status : Status) (retry switchPartition : Bool)
  /-- The server cannot describe partitions: direct writing is switched off. -/
  | directWriteUnimplemented (retry switchPartition : Bool)
  | serverMessage (generation : Nat) (message : ServerMessage)
  | writeRequestDone (request : Nat)
  | tokenUpdateFailed
  /-- The precommit callback of a transaction object runs. -/
  | precommit (txInfo : Nat)
deriving DecidableEq

def react (env : Environment) : Event → Session Unit
  | .write now message => writeInternal env now message
  | .wakeUp now => flushWriteIfRequiredImpl env now
  | .flush => flush env
  | .getInitSeqNo => getInitSeqNo env
  | .close => do
      let state ← .get
      .when (!state.aborting && !state.currentBatch.empty) (writeBatchImpl env)
  | .closeTimedOut => closeImpl .success
  | .compressed task => do
      let tasks ← .read State.compressing
      match tasks[task]? with
      | none => pure ()
      | some block => do
          .update (fun state => { state with compressing := state.compressing.eraseIdx task })
          compressionTask env block
  | .scheduledSend => do
      let scheduled ← .read State.sendImplScheduled
      .when scheduled do
        .update (fun state => { state with sendImplScheduled := false })
        sendImpl env
  | .scheduledToken => do
      let scheduled ← .read State.scheduledTokenEvents
      .when (decide (0 < scheduled)) do
        .update (fun state => { state with
          scheduledTokenEvents := state.scheduledTokenEvents - 1 })
        pushEvent .readyToAccept
  | .connect describePartition clientContext => connect describePartition clientContext
  | .connectionError status retry switchPartition => restartImpl status retry switchPartition
  | .directWriteUnimplemented retry switchPartition => do
      .update (fun state => { state with directWriteUnsupported := true })
      restartImpl (.other 400050) retry switchPartition
  | .serverMessage generation message => do
      let current ← .read State.connectionGeneration
      .when (generation == current) (
        match message with
        | .initResponse response => processInitResponse env response
        | .writeResponse acks => processWriteResponse env acks)
  | .writeRequestDone request => do
      let pending ← .read State.pendingWrites
      match pending[request]? with
      | none => pure ()
      | some memory => do
          .update (fun state => { state with pendingWrites := state.pendingWrites.eraseIdx request })
          onMemoryUsageChangedImpl (-(memory : Int))
          let readyToAccept ← tryIssueContinuationTokenImpl env
          .when readyToAccept (pushEvent .readyToAccept)
  | .tokenUpdateFailed => do
      let state ← .get
      .when (state.sessionEstablished && !state.aborting) (closeImpl .clientUnauthenticated)
  | .precommit txInfo => precommitCallback txInfo

abbrev Reaches (env : Environment) (permitted : State → Event → Prop) (state : State) : Prop :=
  Reachable (react env) permitted {} state

end YdbSdk.Topic.WriteSession
