import YdbSdk.Topic.WriteSession.State

namespace YdbSdk.Topic.WriteSession

/-! # The size estimate that cuts write requests

The protobuf size helpers of `NWriteSessionGrpc`.  Sizes and values are natural
numbers: every value the helpers are called with is non-negative.
-/

def varintSize (value : Nat) : Nat := .log2 (value ||| 1) / 7 + 1

def tagSize (fieldNumber : Nat) : Nat := varintSize (fieldNumber * 8)

def lengthDelimitedSize (size : Nat) : Nat := size + varintSize size

def protoIntFieldSize (fieldNumber value : Nat) : Nat :=
  if value = 0 then 0 else tagSize fieldNumber + varintSize value

def protoInt64FieldSizeUpperBound (fieldNumber : Nat) : Nat := tagSize fieldNumber + 10

def protoBytesFieldSize (fieldNumber size : Nat) : Nat :=
  if size = 0 then 0 else tagSize fieldNumber + lengthDelimitedSize size

def protoMessageFieldSize (fieldNumber size : Nat) : Nat :=
  tagSize fieldNumber + lengthDelimitedSize size

structure RequestSizeLimiter where
  bodySize : Nat := 0
  envelopeFieldNumber : Nat
  maxSize : Nat

def RequestSizeLimiter.empty (limiter : RequestSizeLimiter) : Bool := limiter.bodySize == 0

def RequestSizeLimiter.canAdd (limiter : RequestSizeLimiter) (deltaSize : Nat) : Bool :=
  limiter.empty ||
    decide (protoMessageFieldSize limiter.envelopeFieldNumber (limiter.bodySize + deltaSize) ≤
      limiter.maxSize)

def RequestSizeLimiter.add (limiter : RequestSizeLimiter) (deltaSize : Nat) :
    RequestSizeLimiter :=
  { limiter with bodySize := limiter.bodySize + deltaSize }

def protoTimestampFieldSize (fieldNumber : Nat) (timestamp : Instant) : Nat :=
  let milliseconds := timestamp / 1000
  protoMessageFieldSize fieldNumber
    (protoIntFieldSize 1 (milliseconds / 1000) +
      protoIntFieldSize 2 (milliseconds % 1000 * 1000000))

def protoMetadataItemFieldSize (fieldNumber : Nat) (item : String × String) : Nat :=
  protoMessageFieldSize fieldNumber
    (protoBytesFieldSize 1 item.1.utf8ByteSize + protoBytesFieldSize 2 item.2.utf8ByteSize)

def protoWriteRequestContextFieldSize : WriteContext → Nat
  | .plain => 0
  | .transaction id =>
    protoMessageFieldSize 3
      (protoBytesFieldSize 1 id.txId.utf8ByteSize + protoBytesFieldSize 2 id.sessionId.utf8ByteSize)
  | .deferred publication =>
    protoMessageFieldSize 9
      (protoIntFieldSize 1 publication.intPublicationId +
        match publication.extPublicationId with
        | none => 0
        | some ext => protoBytesFieldSize 2 ext.utf8ByteSize)

def protoTopicMessageDataFieldSize (createdAt : Instant)
    (dataSize uncompressedSize metadataSize : Nat) : Nat :=
  protoMessageFieldSize 1
    (protoInt64FieldSizeUpperBound 1 + protoTimestampFieldSize 2 createdAt +
      protoBytesFieldSize 3 dataSize + protoIntFieldSize 4 uncompressedSize + metadataSize)

def partitionKeyMetaKey : String := "__partition_key"

/-- Metadata items a batch block sends: all items of its first message, and the
partition keys of the others. -/
def batchMetadataItems (first : MessageRecord) (others : List MessageRecord) : MessageMeta :=
  first.messageMeta ++
    others.flatMap (fun message => message.messageMeta.filter (fun item => item.1 == partitionKeyMetaKey))

def metadataSize (items : MessageMeta) : Nat :=
  (items.map (protoMetadataItemFieldSize 7)).sum

/-- `EstimateTopicWriteRequestBlockSize`; `none` where the source asserts that an
original message is there. -/
def estimateTopicWriteRequestBlockSize (block : Block) (originals : List MessageRecord)
    (includeRequestFields : Bool) : Option Nat :=
  match originals with
  | [] => none
  | first :: rest =>
    let requestFields :=
      if includeRequestFields then
        protoIntFieldSize 2 block.codecId + protoWriteRequestContextFieldSize first.writeContext
      else 0
    if block.messageCount > 1 then
      if originals.length < block.messageCount then none
      else
        some (requestFields +
          protoTopicMessageDataFieldSize first.createdAt block.data.length block.originalSize
            (metadataSize (batchMetadataItems first (rest.take (block.messageCount - 1)))))
    else if block.compressed then
      some (requestFields +
        protoTopicMessageDataFieldSize first.createdAt block.data.length block.originalSize
          (metadataSize first.messageMeta))
    else
      some (requestFields +
        (block.originalDataRefs.map (fun buffer =>
          protoTopicMessageDataFieldSize first.createdAt buffer.length block.originalSize
            (metadataSize first.messageMeta))).sum)

theorem estimateTopicWriteRequestBlockSize_isSome
    (nonempty : originals ≠ []) (enough : block.messageCount ≤ originals.length)
    (includeRequestFields : Bool) :
    (estimateTopicWriteRequestBlockSize block originals includeRequestFields).isSome = true := by
  cases originals with
  | nil => contradiction
  | cons first rest =>
    have enough : ¬ (first :: rest).length < block.messageCount := Nat.not_lt.mpr enough
    simp only [estimateTopicWriteRequestBlockSize, if_neg enough]
    by_cases several : 1 < block.messageCount
    · simp [several]
    · by_cases compressed : block.compressed = true <;> simp [several, compressed]

end YdbSdk.Topic.WriteSession
