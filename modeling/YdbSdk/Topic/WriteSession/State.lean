import YdbSdk.Control.Run
import YdbSdk.Data.Assoc
import YdbSdk.Data.PriorityQueue

namespace YdbSdk.Topic.WriteSession

open YdbSdk.Control YdbSdk.Data

/-! # The state of one write session

The containers and flags of `TWriteSessionImpl`, one field for each member that a
modelled function reads.  Bytes are lists, instants are microseconds, and shared
objects (`TTransactionInfo`, `TDeferredPublicationAckState`) live in lists of
their own and are named by their position.
-/

abbrev Bytes := List UInt8
abbrev Instant := Nat

inductive Codec where
  | raw
  | gzip
  | lzop
  | zstd
  | kafkaBatch
  | custom
deriving DecidableEq

def Codec.id : Codec → Nat
  | .raw => 1
  | .gzip => 2
  | .lzop => 3
  | .zstd => 4
  | .kafkaBatch => 5
  | .custom => 10000

inductive Status where
  | success
  | badRequest
  | sessionExpired
  | clientUnauthenticated
  | other (code : Nat)
deriving DecidableEq

structure TransactionId where
  sessionId : String
  txId : String
deriving DecidableEq

/-- A handle of a deferred publication; `ackState` names the shared counters. -/
structure DeferredPublication where
  intPublicationId : Nat
  extPublicationId : Option String
  ackState : Nat
deriving DecidableEq

inductive WriteContext where
  | plain
  | transaction (id : TransactionId)
  | deferred (publication : DeferredPublication)
deriving DecidableEq

/-- `operator==` of the variant: handles of one publication compare equal. -/
def WriteContext.same : WriteContext → WriteContext → Bool
  | .plain, .plain => true
  | .transaction left, .transaction right => left == right
  | .deferred left, .deferred right =>
    left.intPublicationId == right.intPublicationId &&
      left.extPublicationId == right.extPublicationId
  | _, _ => false

/-- What `std::move` leaves in the variant it moved from. -/
def WriteContext.movedFrom : WriteContext → WriteContext
  | .plain => .plain
  | .transaction _ => .transaction ⟨"", ""⟩
  | .deferred publication => .deferred ⟨0, none, publication.ackState⟩

abbrev MessageMeta := List (String × String)

structure Message where
  id : Nat
  createdAt : Instant
  dataRef : Bytes
  codec : Option Codec
  originalSize : Nat
  messageMeta : MessageMeta
  writeContext : WriteContext

structure MessageBatch where
  data : Bytes := []
  messages : List Message := []
  currentSize : Nat := 0
  startedAt : Instant := 0
  acquired : Bool := false
  flushRequested : Bool := false

structure Block where
  offset : Nat := 0
  messageCount : Nat := 0
  originalSize : Nat := 0
  originalMemoryUsage : Nat := 0
  codecId : Nat := Codec.raw.id
  originalDataRefs : List Bytes := []
  createdAt : List Instant := []
  messageKeys : List (Option String) := []
  data : Bytes := []
  compressed : Bool := false
deriving DecidableEq

/-- The part of an original message that travels to the server. -/
structure MessageRecord where
  id : Nat
  createdAt : Instant
  size : Nat
  messageMeta : MessageMeta
  writeContext : WriteContext
deriving DecidableEq

structure OriginalMessage extends MessageRecord where
  flushPromise : Option Nat := none

def Message.toRecord (message : Message) : MessageRecord where
  id := message.id
  createdAt := message.createdAt
  size := message.dataRef.length
  messageMeta := message.messageMeta
  writeContext := message.writeContext

def Message.movedFrom (message : Message) : Message :=
  { message with messageMeta := [], writeContext := message.writeContext.movedFrom }

inductive PrecommitFuture where
  | allAcksReceived
  | ready (status : Status)

structure TransactionInfo where
  txId : TransactionId
  isActive : Bool := false
  subscribed : Bool := false
  /-- The transaction has taken the precommit callback. -/
  callbackAdded : Bool := false
  allAcksReceived : Option Status := none
  commitCalled : Bool := false
  writeCount : Nat := 0
  ackCount : Nat := 0
  /-- The future returned by the precommit callback, once it was called. -/
  precommit : Option PrecommitFuture := none

/-- The value of the future the precommit callback returned, once it has one. -/
def TransactionInfo.precommitResult (info : TransactionInfo) : Option Status :=
  match info.precommit with
  | none => none
  | some .allAcksReceived => info.allAcksReceived
  | some (.ready status) => some status

structure AckState where
  writeCount : Nat := 0
  ackCount : Nat := 0
  waitCalled : Bool := false
  isSealed : Bool := false
  allAcksReceived : Option Status := none

structure DeferredInFlightWrite where
  ackState : Nat
  intPublicationId : Nat
  extPublicationId : Option String
  unackedCount : Nat

/-- One message of a write request; `originals` are the messages it carries. -/
structure MessageData where
  seqNo : Nat
  createdAt : Instant
  metadataItems : MessageMeta
  uncompressedSize : Nat
  data : Bytes
  originals : List MessageRecord

structure WriteRequest where
  messages : List MessageData := []
  codec : Nat := 0
  context : WriteContext := .plain

inductive AckStatus where
  | written (offset : Nat)
  | alreadyWritten
  | discarded
  | writtenInTx
deriving DecidableEq

structure WriteAck where
  id : Nat
  status : AckStatus
  offset : Nat
  partitionId : Nat

inductive SessionEvent where
  | readyToAccept
  | acks (acks : List WriteAck)

/-- The settings a modelled function reads, after `InitWriter` has resolved them. -/
structure Settings where
  codec : Codec := .gzip
  compressionExecutorIsAsync : Bool := true
  deduplicationEnabled : Bool := true
  validateSeqNo : Bool := true
  batchFlushInterval : Nat := 1000000
  batchFlushSizeBytes : Option Nat := none
  batchFlushMessageCount : Nat := 1
  maxMemoryUsage : Nat := 20971520
  directWriteToPartition : Bool := true
  partitionId : Option Nat := none

/-- What the session meets outside of its own code. -/
structure Environment where
  settings : Settings := {}
  /-- Which of several blocks with the least offset is on top of the heap. -/
  heapChoice : Nat → Nat := fun _ => 0
  /-- The output of a coder; `none` when the codec is unknown or throws. -/
  encode : Codec → List Bytes → Option Bytes := fun _ payloads => some (1 :: payloads.flatten)
  /-- Whether the credentials provider fails at the update made for a request. -/
  tokenUpdateFails : Nat → Bool := fun _ => false
  spaceUsedLong : WriteRequest → Nat := fun request => request.messages.length
  maxGrpcMessageSize : Nat := 125829120

inductive Exception where
  | contractViolation (text : String)
  | unsupportedCodec
  | valueAlreadySet

inductive Assertion where
  | autoSeqNoModeKnown
  | initSeqNoKnown
  | seqNoAboveInitSeqNo
  | batchMessageCount
  | batchDataRefs
  | encodedMessageAlone
  | blockNotCompressed
  | compressedDataNotEmpty
  /-- "There are packed messages but no original messages" -/
  | noOriginalMessages
  /-- "Lost original message(s)" -/
  | lostOriginalMessages
  | requestContextOriginals
  | estimatedBlockOriginals
  | sentBlockOriginals
  | standardBlockCount
  | retryPackedCount
  | retryOriginalCount
  | memoryUsageCovers
  | bytesInflightCompressed
  | bytesInflightUncompressed
  /-- `front()` of an empty queue: no assertion of the source, but undefined. -/
  | frontOfEmptySentQueue
  | acknowledgedOriginals
  | acknowledgedId
  | deferredUnacked
  | deferredAckCount
  | deferredAbortCount
  | commitCalledOnce

/-- A message the session has accepted: what the user passed, and the transaction
object it was counted in. -/
structure Accepted where
  record : MessageRecord
  txInfo : Option Nat

structure State where
  autoSeqNoMode : Option Bool := none
  nextId : Nat := 0
  initSeqNo : Option Nat := none
  currentBatch : MessageBatch := {}
  originalMessagesToSend : List OriginalMessage := []
  packedMessagesToSend : List Block := []
  sentOriginalMessages : List OriginalMessage := []
  sentPackedMessage : List Block := []
  /-- Blocks handed to the asynchronous compression executor. -/
  compressing : List Block := []
  sendImplScheduled : Bool := false
  aborting : Bool := false
  sessionEstablished : Bool := false
  batchingSupported : Bool := false
  connectionGeneration : Nat := 0
  /-- A `Connect` is due: at the start, and from `RestartImpl` until `Connect`. -/
  connectPending : Bool := true
  directWriteToPartitionId : Option Nat := none
  directWriteUnsupported : Bool := false
  partitionId : Nat := 0
  memoryUsage : Nat := 0
  bytesInflightCompressed : Int := 0
  bytesInflightUncompressed : Int := 0
  firstTokenSent : Bool := false
  continuationTokenIssued : Bool := false
  /-- Token events of synchronous compression that wait for their callback. -/
  scheduledTokenEvents : Nat := 0
  /-- Memory charged for requests whose write callback has not come yet. -/
  pendingWrites : List Nat := []
  txs : Assoc TransactionId Nat := []
  txInfos : List TransactionInfo := []
  writtenInTx : Assoc Nat TransactionId := []
  writtenInDeferred : Assoc Nat DeferredInFlightWrite := []
  ackStates : Assoc Nat AckState := []
  flushResults : List (Nat × Bool) := []
  nextFlushPromise : Nat := 0
  events : List SessionEvent := []
  closed : Option Status := none
  /-- Elements taken from the heap so far; it indexes `Environment.heapChoice`. -/
  heapPops : Nat := 0
  /-- Write requests put on the stream of the current connection. -/
  requests : List WriteRequest := []
  accepted : List Accepted := []
  acked : List MessageRecord := []
  /-- Messages acknowledged when the current connection was opened. -/
  ackedAtConnect : Nat := 0
  /-- Messages acknowledged when the session aborted. -/
  ackedAtAbort : Option Nat := none

abbrev Session := Code Exception Assertion State

def State.top (env : Environment) (state : State) : Option Block :=
  PriorityQueue.top? Block.offset (env.heapChoice state.heapPops) state.packedMessagesToSend

end YdbSdk.Topic.WriteSession
