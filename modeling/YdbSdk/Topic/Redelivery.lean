import YdbSdk.Control.Run
import YdbSdk.Data.Intervals

namespace YdbSdk.Topic.Redelivery

open YdbSdk.Control YdbSdk.Data Code List

/-! # Messages of several records

A message may hold a batch of records with consecutive offsets.  The server delivers it
whole, also when reading starts at an offset inside it, and the client cuts it.
-/

abbrev Bytes := List UInt8

inductive Codec where
  | unspecified
  | raw
  | kafkaBatch
  | other (id : Nat)
deriving DecidableEq

structure RecordMeta where
  offsetDelta : Int
  sequenceDelta : Int
  timestampDelta : Int

structure DecompressedMessage where
  data : Bytes
  recordMeta : Option RecordMeta

/-- The bases are present wherever a message is a record. -/
structure DecompressionResult where
  messages : List DecompressedMessage
  batchBaseSequence : Int := 0
  batchBaseTimestampMs : Int := 0

structure MessageData where
  offset : Nat
  seqNo : Nat := 0
  createdAt : Nat := 0
  data : Bytes
  uncompressedSize : Nat := 0
  messageGroupId : String := ""
  metadataItems : List (String × String) := []
deriving DecidableEq

structure BatchInfo where
  codec : Codec
  producerId : String := ""
  writtenAt : Nat := 0
deriving DecidableEq

structure Environment where
  doDecompress : Bool
  rangesMode : Bool
  partitionSessionId : Nat
  /-- An exception of the codec has a text. -/
  decompressData : Codec → Bytes → Except String DecompressionResult
  /-- `RecordsCount` of a batch header that can be read. -/
  readKafkaBatchHeader : Bytes → Option Nat

structure MessageInformation where
  offset : Nat
  producerId : String
  seqNo : Nat
  createTime : Nat
  writeTime : Nat
  uncompressedSize : Nat
  messageGroupId : String
  messageCount : Nat := 1

structure Message where
  data : Bytes
  decompressionError : Option String
  information : MessageInformation

structure CompressedMessage where
  codec : Codec
  data : Bytes
  information : MessageInformation

structure DecompressedData where
  messagesTaken : Nat := 0
  dataSize : Nat := 0
  messages : List Message := []
  compressedMessages : List CompressedMessage := []

def getReadMessageCount (env : Environment) (messageData : MessageData) : Codec → Nat
  | .kafkaBatch => (env.readKafkaBatchHeader messageData.data).getD 1
  | _ => 1

def isReplicationServiceMessage (messageData : MessageData) : Bool :=
  messageData.offset == 0 &&
    messageData.metadataItems.any (· == ("_ydb_service_replication_message", "true"))

/-- A 64-bit sum. -/
def wrap (value : Int) : Nat := (value % 2 ^ 64).toNat

/-- The task's call of the codec; data that cannot be decompressed is passed on as it is. -/
def codecResult (env : Environment) (codec : Codec) (data : Bytes) :
    DecompressionResult × Option String :=
  match codec with
  | .unspecified | .raw => ({ messages := [⟨data, none⟩] }, none)
  | codec =>
    match env.decompressData codec data with
    | .ok result => (result, none)
    | .error text => ({ messages := [⟨data, none⟩] }, some text)

def plainInformation (batch : BatchInfo) (messageData : MessageData) (size : Nat) :
    MessageInformation where
  offset := messageData.offset
  producerId := batch.producerId
  seqNo := messageData.seqNo
  createTime := messageData.createdAt
  writeTime := batch.writtenAt
  uncompressedSize := size
  messageGroupId := messageData.messageGroupId

def buildMessage (env : Environment) (batch : BatchInfo) (messageData : MessageData)
    (decompressed : DecompressedMessage) : Message :=
  let result := codecResult env batch.codec messageData.data
  let plain := plainInformation batch messageData decompressed.data.length
  { data := decompressed.data
    decompressionError := result.2
    information :=
      match decompressed.recordMeta with
      | none => plain
      | some record =>
        { plain with
          offset := wrap (messageData.offset + record.offsetDelta)
          seqNo := wrap (result.1.batchBaseSequence + record.sequenceDelta)
          createTime := wrap (result.1.batchBaseTimestampMs + record.timestampDelta) } }

/-- One pass of the loop: a record below the committed offset is taken and skipped. -/
def takeMessage (env : Environment) (committedOffset : Nat) (batch : BatchInfo)
    (messageData : MessageData) (result : DecompressedData) (decompressed : DecompressedMessage) :
    DecompressedData :=
  let message := buildMessage env batch messageData decompressed
  if decompressed.recordMeta.isSome && message.information.offset < committedOffset then
    { result with messagesTaken := result.messagesTaken + 1 }
  else
    { result with
      messagesTaken := result.messagesTaken + 1
      dataSize := result.dataSize + decompressed.data.length
      messages := result.messages ++ [message] }

def buildDecompressedData (env : Environment) (committedOffset : Nat) (batch : BatchInfo)
    (messageData : MessageData) : DecompressedData :=
  if env.doDecompress then
    (codecResult env batch.codec messageData.data).1.messages.foldl
      (takeMessage env committedOffset batch messageData) {}
  else
    { messagesTaken := 1
      dataSize := messageData.data.length
      compressedMessages :=
        [{ codec := batch.codec
           data := messageData.data
           information :=
            { plainInformation batch messageData messageData.uncompressedSize with
              messageCount := getReadMessageCount env messageData batch.codec } }] }

/-- A message received and not yet decompressed, with the committed offset of the
time it came. -/
structure Waiting where
  committedOffset : Nat
  batch : BatchInfo
  messageData : MessageData
  /-- The read offset the user had confirmed. -/
  readOffset : Option Nat

/-- A partition stream.  `readOffset` and `delivered` record what the user confirmed and
what they were given. -/
structure State where
  firstNotReadOffset : Nat
  maxReadOffset : Nat := 0
  maxCommittedOffset : Nat
  commits : Intervals := []
  clientCommits : Intervals := []
  waiting : List Waiting := []
  readOffset : Option Nat := none
  delivered : List (Waiting × DecompressedData) := []

def start (committedOffset : Nat) : State :=
  { firstNotReadOffset := committedOffset, maxCommittedOffset := committedOffset }

abbrev Stream := Code Empty String State

def addToCommitRanges (env : Environment) (startOffset endOffset : Nat) : Stream Unit := do
  let state ← .get
  .require (!(state.clientCommits.intersects startOffset endOffset) &&
      decide (state.maxCommittedOffset ≤ startOffset))
    ("Invalid offset range [" ++ toString startOffset ++ ", " ++ toString endOffset ++
      ") : range must start from " ++ toString state.maxCommittedOffset ++
      " or has some offsets that are committed already. Partition stream id: -" ++
      toString env.partitionSessionId)
  .when env.rangesMode do
    .require (!state.commits.intersects startOffset endOffset)
      "!Commits.Intersects(startOffset, endOffset)"
    .update fun state =>
      { state with commits := state.commits.insertInterval startOffset endOffset }
  .update fun state =>
    { state with clientCommits := state.clientCommits.insertInterval startOffset endOffset }

def updateMaxReadOffset (offset : Nat) : Stream Unit :=
  .update fun state => { state with maxReadOffset := max state.maxReadOffset offset }

def updateMaxCommittedOffset (offset : Nat) : Stream Unit := do
  let state ← .get
  .when (decide (state.maxCommittedOffset < offset)) do
    .update fun state =>
      { state with
        clientCommits := state.clientCommits.eraseInterval state.maxCommittedOffset offset
        maxCommittedOffset := offset }

def validate (env : Environment) (desiredOffset : Nat) :
    List (BatchInfo × MessageData) → Stream Nat
  | [] => return desiredOffset
  | (batch, messageData) :: rest =>
    if isReplicationServiceMessage messageData then validate env desiredOffset rest
    else do
      .when (decide (desiredOffset < messageData.offset))
        (addToCommitRanges env desiredOffset messageData.offset)
      let count := getReadMessageCount env messageData batch.codec
      updateMaxReadOffset (messageData.offset + count - 1)
      validate env (max desiredOffset (messageData.offset + count)) rest

/-- The data of one partition; without messages the connection breaks instead. -/
def onReadResponse (env : Environment) (messages : List (BatchInfo × MessageData)) :
    Stream Unit := do
  let desiredOffset ← validate env (← .read State.firstNotReadOffset) messages
  .when (!messages.isEmpty) do
    .update fun state =>
      { state with
        firstNotReadOffset := desiredOffset
        waiting := state.waiting ++ messages.map fun message =>
          ⟨state.maxCommittedOffset, message.1, message.2, state.readOffset⟩ }

/-- The request that tells the server both offsets is not part of the stream. -/
def confirmCreate (readOffset commitOffset : Option Nat) : Stream Unit :=
  .update fun state =>
    { state with
      firstNotReadOffset := commitOffset.getD state.firstNotReadOffset
      readOffset := readOffset <|> state.readOffset }

def decompress (env : Environment) (index : Nat) : Stream Unit :=
  .update fun state =>
    match state.waiting[index]? with
    | none => state
    | some info =>
      { state with
        waiting := state.waiting.eraseIdx index
        delivered := state.delivered ++
          [(info, buildDecompressedData env info.committedOffset info.batch info.messageData)] }

inductive Event where
  | confirmCreate (readOffset commitOffset : Option Nat)
  | readResponse (messages : List (BatchInfo × MessageData))
  | commitOffsetResponse (committedOffset : Nat)
  | decompress (index : Nat)
deriving DecidableEq

def react (env : Environment) : Event → Stream Unit
  | .confirmCreate readOffset commitOffset => confirmCreate readOffset commitOffset
  | .readResponse messages => onReadResponse env messages
  | .commitOffsetResponse committedOffset => updateMaxCommittedOffset committedOffset
  | .decompress index => decompress env index

/-! ## What the user is owed -/

namespace Waiting

variable (env : Environment) (info : Waiting)

def records : List Message :=
  (codecResult env info.batch.codec info.messageData.data).1.messages.map
    (buildMessage env info.batch info.messageData)

def isBatch : Bool :=
  (codecResult env info.batch.codec info.messageData.data).1.messages.all (·.recordMeta.isSome)

/-- The offsets from which records are due: the committed one and the one the user
confirmed. -/
def positions : List Nat := info.committedOffset :: info.readOffset.toList

/-- The records the user gets; a compressed message is all of its records. -/
def received (data : DecompressedData) : List Message :=
  data.messages ++ data.compressedMessages.flatMap fun _ => info.records env

/-- No record lies between two of the positions; if the client does not decompress, none
lies before one. -/
def cutsCleanly : Bool :=
  !info.isBatch env || (info.records env).all fun record => info.positions.all fun position =>
    decide (position ≤ record.information.offset) ==
      (!env.doDecompress || decide (info.committedOffset ≤ record.information.offset))

end Waiting

section Cutting

variable {env : Environment} {committedOffset : Nat} {batch : BatchInfo} {messageData : MessageData}

theorem foldl_takeMessage {messages : List DecompressedMessage}
    (records : ∀ message ∈ messages, message.recordMeta.isSome = true) :
    (messages.foldl (takeMessage env committedOffset batch messageData) result).messages =
        result.messages ++ (messages.map (buildMessage env batch messageData)).filter
          (fun message => decide (committedOffset ≤ message.information.offset)) ∧
    (messages.foldl (takeMessage env committedOffset batch messageData) result).compressedMessages =
      result.compressedMessages := by
  induction messages generalizing result with
  | nil => simp
  | cons message rest ih =>
    obtain ⟨record, others⟩ := forall_mem_cons.mp records
    rw [foldl_cons, (ih others).1, (ih others).2]
    by_cases committed :
        (buildMessage env batch messageData message).information.offset < committedOffset
    · simp [takeMessage, record, committed]
    · simp [takeMessage, committed, Nat.le_of_not_lt committed]

variable {info : Waiting} {position : Nat}

theorem received_build (batches : info.isBatch env = true) :
    info.received env
        (buildDecompressedData env info.committedOffset info.batch info.messageData) =
      (info.records env).filter fun record =>
        !env.doDecompress || decide (info.committedOffset ≤ record.information.offset) := by
  unfold Waiting.received buildDecompressedData
  cases decompresses : env.doDecompress with
  | false => simp
  | true =>
    rw [if_pos rfl, (foldl_takeMessage (all_eq_true.mp batches)).1,
      (foldl_takeMessage (all_eq_true.mp batches)).2]
    simp [Waiting.records]

theorem received_from (batches : info.isBatch env = true) (cleanly : info.cutsCleanly env = true)
    (due : position ∈ info.positions) :
    info.received env
        (buildDecompressedData env info.committedOffset info.batch info.messageData) =
      (info.records env).filter fun record => decide (position ≤ record.information.offset) := by
  rw [received_build batches]
  refine filter_congr fun record member => ?_
  simp only [Waiting.cutsCleanly, batches, Bool.not_true, Bool.false_or, all_eq_true] at cleanly
  exact (eq_of_beq (cleanly record member position due)).symm

end Cutting

/-- The commit offset the user confirms is not below the first offset not read, and the
messages of several records cut cleanly. -/
def permitted (env : Environment) (state : State) : Event → Bool
  | .confirmCreate _ commitOffset => commitOffset.all (decide <| state.firstNotReadOffset ≤ ·)
  | .readResponse messages => messages.all fun message =>
    Waiting.cutsCleanly env
      ⟨state.maxCommittedOffset, message.1, message.2, state.readOffset⟩
  | .commitOffsetResponse _ | .decompress _ => true

structure Sound (env : Environment) (lowest : Nat) (state : State) : Prop where
  rising : lowest ≤ state.firstNotReadOffset
  waiting : ∀ info ∈ state.waiting, info.cutsCleanly env = true
  delivered : ∀ entry ∈ state.delivered, entry.1.cutsCleanly env = true ∧
    entry.2 = buildDecompressedData env entry.1.committedOffset entry.1.batch entry.1.messageData

section Reactions

variable {env : Environment} {state before : State} {lowest desired : Nat}

def State.view (state : State) : State :=
  { state with maxReadOffset := 0, commits := [], clientCommits := [] }

theorem addToCommitRanges_keeps {startOffset endOffset : Nat} (same : state.view = before.view) :
    (addToCommitRanges env startOffset endOffset).wp
      (.keeping (·.view = before.view) fun _ => True) state := by
  simp only [addToCommitRanges, wp_rules]
  exact ⟨fun _ => ⟨fun _ => ⟨fun _ => same, fun _ => trivial⟩, fun _ => same⟩, fun _ => trivial⟩

theorem validate_keeps {messages : List (BatchInfo × MessageData)}
    (same : state.view = before.view) :
    (validate env desired messages).wp
      ⟨fun next after => desired ≤ next ∧ after.view = before.view, by rintro ⟨⟩, fun _ => True⟩ state := by
  induction messages generalizing state desired with
  | nil => exact ⟨Nat.le_refl _, same⟩
  | cons message rest ih =>
    simp only [validate, wp_rules]
    refine ⟨fun _ => ih same, fun _ => ?_⟩
    have later {after : State} {count : Nat} (same : after.view = before.view) :
        (validate env (max desired count) rest).wp
          ⟨fun next after => desired ≤ next ∧ after.view = before.view, by rintro ⟨⟩, fun _ => True⟩
          after :=
      wp_mono (ih same)
        (fun _ _ kept => ⟨Nat.le_trans (Nat.le_max_left ..) kept.1, kept.2⟩) (by simp)
    refine ⟨fun _ => ?_, fun _ => later same⟩
    exact wp_mono (addToCommitRanges_keeps same) (fun _ _ kept => later kept) (by simp)

theorem Sound.of_view (sound : Sound env lowest state) (same : before.view = state.view) :
    Sound env lowest before where
  rising := congrArg State.firstNotReadOffset same ▸ sound.rising
  waiting := congrArg State.waiting same ▸ sound.waiting
  delivered := congrArg State.delivered same ▸ sound.delivered

theorem react_sound (event : Event) (sound : Sound env lowest state)
    (allowed : permitted env state event = true) :
    (react env event).wp (.keeping (Sound env lowest) fun _ => True) state := by
  cases event with
  | confirmCreate readOffset commitOffset =>
    refine { sound with rising := ?_ }
    cases commitOffset with
    | none => exact sound.rising
    | some offset => exact Nat.le_trans sound.rising (by simpa [permitted] using allowed)
  | readResponse messages =>
    simp only [react, onReadResponse, wp_rules]
    refine wp_mono (validate_keeps rfl) (fun desired after kept => ?_) (by simp)
    obtain ⟨higher, same⟩ := kept
    have sound : Sound env lowest after := sound.of_view same
    have committed : after.maxCommittedOffset = state.maxCommittedOffset :=
      (congrArg State.maxCommittedOffset same :)
    have confirmed : after.readOffset = state.readOffset := (congrArg State.readOffset same :)
    refine ⟨fun _ => { sound with rising := ?_, waiting := ?_ }, fun _ => sound⟩
    · exact Nat.le_trans sound.rising (congrArg State.firstNotReadOffset same ▸ higher)
    · refine forall_mem_append.mpr ⟨sound.waiting, forall_mem_map.mpr ?_⟩
      rw [committed, confirmed]
      exact all_eq_true.mp allowed
  | commitOffsetResponse committedOffset =>
    simp only [react, updateMaxCommittedOffset, wp_rules]
    exact ⟨fun _ => { sound with }, fun _ => sound⟩
  | decompress index =>
    simp only [react, decompress, wp_rules]
    split
    · exact sound
    · rename_i info found
      refine { sound with waiting := ?_, delivered := ?_ }
      · exact fun other member => sound.waiting other (mem_of_mem_eraseIdx member)
      · refine forall_mem_append.mpr ⟨sound.delivered, ?_⟩
        exact forall_mem_singleton.mpr
          ⟨sound.waiting info (mem_of_getElem? found), rfl⟩

end Reactions

/-- Of every message of several records the user gets, once and in order, those from the
committed offset and from the confirmed read offset on, and the first offset not read
never decreases. -/
theorem records_delivered_from_offset (env : Environment) (committedOffset : Nat)
    {before after : State}
    (reached : Reachable (react env) (fun state event => permitted env state event = true)
      (start committedOffset) before)
    (later : Reachable (react env) (fun state event => permitted env state event = true)
      before after) :
    before.firstNotReadOffset ≤ after.firstNotReadOffset ∧
      ∀ entry ∈ after.delivered, entry.1.isBatch env = true → ∀ position ∈ entry.1.positions,
        entry.1.received env entry.2 =
          (entry.1.records env).filter fun record =>
            decide (position ≤ record.information.offset) := by
  have first : Sound env 0 before :=
    reached.invariant ⟨Nat.zero_le _, by simp [start], by simp [start]⟩
      fun _ event => react_sound event
  have sound : Sound env before.firstNotReadOffset after :=
    later.invariant { first with rising := Nat.le_refl _ } fun _ event => react_sound event
  refine ⟨sound.rising, fun entry member batches position due => ?_⟩
  obtain ⟨cleanly, built⟩ := sound.delivered entry member
  rw [built]
  exact received_from batches cleanly due

def twoRecords : Environment where
  doDecompress := true
  rangesMode := true
  partitionSessionId := 1
  decompressData _ data := .ok
    { messages := [⟨data, some ⟨0, 0, 0⟩⟩, ⟨data, some ⟨1, 1, 0⟩⟩] }
  readKafkaBatchHeader _ := some 2

def State.offsets (state : State) : List (List Nat) :=
  state.delivered.map fun entry => entry.2.messages.map (·.information.offset)

def redelivery (readOffset commitOffset : Option Nat) : List Event :=
  [.confirmCreate readOffset commitOffset,
    .readResponse [({ codec := .kafkaBatch }, { offset := 10, data := [] })], .decompress 0]

theorem records_delivered_inside_batch :
    ∃ after, Reachable (react twoRecords)
        (fun state event => permitted twoRecords state event = true) (start 11) after ∧
      after.offsets = [[11]] ∧ (start 11).firstNotReadOffset ≤ after.firstNotReadOffset := by
  obtain ⟨after, reached, offsets⟩ : ∃ after, Reachable (react twoRecords)
      (fun state event => permitted twoRecords state event = true) (start 11) after ∧
      after.offsets = [[11]] :=
    exists_reachable (redelivery (some 11) none) (by decide +kernel)
  exact ⟨after, reached, offsets, (records_delivered_from_offset twoRecords 11 .start reached).1⟩

/-- The user goes back from 11 to 10, which moves the first offset not read back; the record
at 10 is not delivered.  Going forward from 10 to 11 they still get the record at 10. -/
theorem confirmed_offset_disregarded :
    (∃ confirmed after, (react twoRecords (.confirmCreate (some 10) (some 10))).step (start 11) =
        .ok confirmed ∧ confirmed.firstNotReadOffset < (start 11).firstNotReadOffset ∧
      run (react twoRecords) (start 11) (redelivery (some 10) (some 10)) = .ok after ∧
      after.readOffset = some 10 ∧ after.offsets = [[11]]) ∧
    ∃ after, run (react twoRecords) (start 10) (redelivery (some 11) none) = .ok after ∧
      after.readOffset = some 11 ∧ after.offsets = [[10, 11]] :=
  ⟨⟨_, _, rfl, by decide, rfl, rfl, rfl⟩, _, rfl, rfl, rfl⟩

end YdbSdk.Topic.Redelivery
