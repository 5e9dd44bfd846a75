import YdbSdk.Topic.ReadFlow.Steps

namespace YdbSdk.Topic.ReadFlow

open YdbSdk.Control YdbSdk.Data Code List

/-! # Responses and the balance

A response brings bytes that are no longer requested and sizes that are already counted,
before an info stands for them.  If the response is refused in between, they are lost.
-/

variable {env : Environment} {lostBytes lostSize : Int} {before state : State}
  {messages : List MessageData} {partitions : List PartitionData}

structure DecompressionTask.Fresh (task : DecompressionTask) : Prop where
  planned : task.phase = .planned
  inProcess : task.state = .inProcess

def sourceSize (tasks : List DecompressionTask) : Nat :=
  (tasks.map DecompressionTask.sourceDataSize).sum

theorem DecompressionTask.total_of_fresh
    (fresh : ∀ task ∈ tasks, task.Fresh) (account : Account) :
    total account.weight tasks = moved (sourceSize tasks) 0 0 account := by
  induction tasks with
  | nil => cases account <;> rfl
  | cons task rest ih =>
    rw [forall_mem_cons] at fresh
    have size : sourceSize (task :: rest) = task.sourceDataSize + sourceSize rest := rfl
    rw [total_cons, ih fresh.2, Account.weight_eq, fresh.1.planned, size]
    cases account <;> simp [moved]

theorem planTasks_wp (ratio : Rat) (messages : List MessageData) {task : DecompressionTask}
    {tasks : List DecompressionTask} (fresh : ∀ task ∈ tasks, task.Fresh) (taskFresh : task.Fresh)
    (blank : task.held = [] → task.sourceDataSize = 0)
    (stays : Stays env lostBytes lostSize before state) :
    (planTasks ratio task tasks messages).wp
      ⟨fun result after => Stays env lostBytes lostSize before after ∧
          (∀ task ∈ result.1, task.Fresh) ∧
          sourceSize result.1 + result.2.getD 0 =
            sourceSize tasks + task.sourceDataSize + totalSize messages,
        fun _ _ => False, Tolerated⟩ state := by
  have grown {task : DecompressionTask} (taskFresh : task.Fresh) :
      ∀ other ∈ tasks ++ [task], other.Fresh :=
    forall_mem_append.mpr ⟨fresh, forall_mem_singleton.mpr taskFresh⟩
  induction messages generalizing state task tasks with
  | nil =>
    refine ⟨stays, ?_⟩
    split
    · rename_i empty
      rw [blank (isEmpty_iff.mp empty)]
      exact ⟨fresh, rfl⟩
    · exact ⟨grown taskFresh, by simp [sourceSize, totalSize]⟩
  | cons data rest ih =>
    rw [planTasks, wp_bind]
    apply pushEvent_wp
    intro taken after accounts same
    have kept := stays.of_same accounts same
    have size : totalSize (data :: rest) = data.size + totalSize rest := rfl
    have added : (task.add ratio data).Fresh := ⟨taskFresh.planned, taskFresh.inProcess⟩
    have source : (task.add ratio data).sourceDataSize = task.sourceDataSize + data.size := rfl
    simp only [wp_rules]
    refine ⟨fun _ => ⟨fun _ => ?_, fun _ => ?_⟩, fun _ => ⟨kept, fresh, ?_⟩⟩
    · have more {task : DecompressionTask} (taskFresh : task.Fresh) :=
        forall_mem_append.mpr ⟨grown added, forall_mem_singleton.mpr taskFresh⟩
      refine wp_then (ih (grown added) ⟨rfl, rfl⟩ (fun _ => rfl) kept more) ?_
      intro result last planned
      refine ⟨planned.1, planned.2.1, ?_⟩
      rw [planned.2.2]
      simp only [sourceSize, map_append, map_cons, map_nil, sum_append,
        sum_cons, sum_nil]
      omega
    · refine wp_then (ih fresh added (by simp [DecompressionTask.add]) kept grown) ?_
      intro result last planned
      refine ⟨planned.1, planned.2.1, ?_⟩
      omega
    · simp only [Option.getD_some]
      omega

/-- What became of data: the session reads on if it took it, and halts otherwise. -/
def Fate (taken : Bool) (before after : State) : Prop :=
  if taken then Grows before after else Halts before after

theorem Fate.after_grows {after : State} (grows : Grows before state)
    (fate : Fate taken state after) : Fate taken before after := by
  cases taken with
  | true => exact grows.trans fate
  | false => exact grows.halts fate

theorem acceptData_wp {serverBytesSize : Int} {data : PartitionData}
    (sound : Sound env (lostBytes + serverBytesSize) (totalSize data.messages) state) :
    (acceptData env serverBytesSize data).wp ⟨fun taken after =>
      Sound env lostBytes 0 after ∧ Fate taken state after, fun _ _ => False, Tolerated⟩ state := by
  simp only [acceptData, wp_rules]
  refine wp_then (planTasks_wp state.averageCompressionRatio data.messages (by simp) ⟨rfl, rfl⟩
    (fun _ => rfl) ⟨sound, .of_reading rfl⟩) ?_
  intro result planned plans
  obtain ⟨tasks, unplanned⟩ := result
  obtain ⟨⟨kept, grows⟩, fresh, size⟩ := plans
  have counts := DecompressionTask.total_of_fresh fresh
  have sizes : (unplanned.getD 0 : Int) + sourceSize tasks = totalSize data.messages := by
    change sourceSize tasks + unplanned.getD 0 = 0 + 0 + totalSize data.messages at size
    omega
  have added : Sound env lostBytes 0 { planned with infos := planned.infos ++
      [⟨totalSize data.messages, 0, serverBytesSize, tasks, unplanned.getD 0⟩] } := by
    have server := counts .serverShare
    have compressed := counts .compressedShare
    dsimp only [Account.weight, moved] at server compressed
    refine .addInfo ?_ ⟨fun task member => ?_, ?_, (counts .decompressedPart).symm⟩
      (counts .decompressedShare)
    · rwa [DataDecompressionInfo.serverShare, DataDecompressionInfo.compressedShare, server, compressed,
        Int.add_zero, sizes, Int.zero_add]
    · exact ⟨fun announced => by simp [(fresh task member).inProcess] at announced⟩
    · have part := counts .compressedPart
      dsimp only [Account.weight, moved] at part ⊢
      omega
  refine ⟨fun _ => ?_, fun _ => ?_⟩
  · exact ⟨added.abort.of_accounts rfl, grows.halts ⟨rfl, rfl, rfl, id, .inr rfl⟩⟩
  · refine wp_then (startDecompressionTasksImpl_stays
      ⟨added.of_accounts rfl, grows.trans (.of_reading rfl)⟩) ?_
    intro _ after stays
    exact ⟨Stays.sound stays, Stays.grows stays⟩

/-- The loop over the partitions comes to data that it accepts. -/
def State.takesBytes (env : Environment) (state : State) : List PartitionData → Bool
  | [] => false
  | data :: rest =>
    if state.partitionStreams.contains data.partitionSession then
      !data.messages.isEmpty && data.messages.all fun message => !message.gapRefused
    else env.directRead && state.takesBytes env rest

structure PartitionData.Whole (data : PartitionData) : Prop where
  gaps : ∀ message ∈ data.messages, message.gapRefused = false
  cookie : data.cookieRefused = false

/-- The contract of counting messages: all are counted, or a gap was refused. -/
abbrev Counts (env : Environment) (lostBytes lostSize : Int) (before : State)
    (messages : List MessageData) : Contract Exception Assertion State Unit where
  returns _ after := Stays env lostBytes (lostSize + totalSize messages) before after
  raises _ _ := ¬ ∀ message ∈ messages, message.gapRefused = false
  stops := Tolerated

section

variable (stays : Stays env lostBytes lostSize before state)
include stays

theorem Stays.counts_nil :
    (pure () : Session Unit).wp (Counts env lostBytes lostSize before []) state := by
  change Stays env lostBytes (lostSize + (0 : Nat)) before state
  rwa [Int.natCast_zero, Int.add_zero]

theorem Stays.addSize (size : Nat) : Stays env lostBytes (lostSize + size) before
      { state with compressedDataSize := state.compressedDataSize + size } := by
  obtain ⟨sound, grows⟩ := stays
  have compressed := sound.compressed
  have grown := grows.compressed
  refine ⟨{ sound with compressed := ?_ }, { grows with compressed := ?_ }⟩
  · change state.compressedDataSize + size = state.compressedHeld + (lostSize + size)
    omega
  · dsimp only
    omega

omit stays in
theorem Counts.cons {data : MessageData} {rest : List MessageData} {code : Session Unit}
    (counts : code.wp (Counts env lostBytes (lostSize + data.size) before rest) state) :
    code.wp (Counts env lostBytes lostSize before (data :: rest)) state := by
  have size : lostSize + (totalSize (data :: rest) : Nat) = lostSize + data.size + totalSize rest := by
    change lostSize + ((data.size + totalSize rest : Nat) : Int) = _
    omega
  refine wp_mono counts (fun _ _ stays => ?_) (fun _ _ refused whole => refused ?_)
  · dsimp only
    rw [size]
    exact stays
  · exact fun message member => whole message (mem_cons_of_mem _ member)

theorem countMessages_counts :
    (countMessages messages).wp (Counts env lostBytes lostSize before messages) state := by
  induction messages generalizing state lostSize with
  | nil => exact stays.counts_nil
  | cons data rest ih =>
    simp only [countMessages, wp_rules]
    exact ⟨fun refused whole => by simp [refused] at whole,
      fun _ => Counts.cons (ih (stays.addSize data.size))⟩

theorem countBatchMessages_counts :
    (countBatchMessages messages).wp (Counts env lostBytes lostSize before messages) state := by
  induction messages generalizing state lostSize with
  | nil => exact stays.counts_nil
  | cons data rest ih =>
    simp only [countBatchMessages, wp_rules]
    exact ⟨fun refused whole => by simp [refused] at whole,
      fun _ => Counts.cons (ih (stays.addSize data.size))⟩

end

/-- The contract of accepting partitions.  Bytes are lost only unless `keepsBytes`, and
sizes only if data is refused, after which no other partition is looked at. -/
abbrev Accepts (env : Environment) (lostBytes : Int) (before : State) (keepsBytes : Prop)
    (partitions : List PartitionData) : Contract Exception Assertion State Bool where
  returns taken after := taken = true ∨ (∀ data ∈ partitions, data.Whole) →
    ∃ bytes, (keepsBytes → bytes = lostBytes) ∧ Sound env bytes 0 after ∧ Fate taken before after
  raises _ _ := ¬ ∀ data ∈ partitions, data.Whole
  stops := Tolerated

theorem Accepts.cons {keepsBytes fewerBytes : Prop} {middle : State} {data : PartitionData}
    {rest : List PartitionData} {code : Session Bool} (grows : Grows before middle)
    (bytes : fewerBytes → keepsBytes)
    (accepts : code.wp (Accepts env lostBytes middle keepsBytes rest) state) :
    code.wp (Accepts env lostBytes before fewerBytes (data :: rest)) state := by
  have fewer (whole : ∀ other ∈ data :: rest, other.Whole) : ∀ other ∈ rest, other.Whole :=
    fun other member => whole other (mem_cons_of_mem _ member)
  refine wp_mono accepts (fun taken after accepted complete => ?_)
    (fun _ _ refused whole => refused (fewer whole))
  obtain ⟨left, kept, sound, fate⟩ := accepted (complete.imp_right fewer)
  exact ⟨left, fun fewer => kept (bytes fewer), sound, fate.after_grows grows⟩

theorem breakConnection_accepts {keepsBytes : Prop} {bytes size : Int}
    (stays : Stays env bytes size before state) (sameBytes : keepsBytes → bytes = lostBytes)
    (noSize : (∀ data ∈ partitions, data.Whole) → size = 0) :
    (do
      breakConnectionAndReconnectImpl
      pure false : Session Bool).wp (Accepts env lostBytes before keepsBytes partitions) state := by
  simp only [breakConnectionAndReconnectImpl, wp_rules]
  refine ⟨fun _ complete => ?_, fun _ => rfl⟩
  have whole := complete.resolve_left (by simp)
  refine ⟨bytes, sameBytes, noSize whole ▸ stays.sound.of_accounts rfl, ?_⟩
  exact stays.grows.halts ⟨rfl, rfl, rfl, fun _ => rfl, .inl rfl⟩

theorem acceptPartitions_accepts {serverBytesSize : Int}
    (sound : Sound env (lostBytes + serverBytesSize) 0 state) :
    (acceptPartitions env serverBytesSize partitions).wp (Accepts env lostBytes state
      (serverBytesSize = 0 ∨ state.takesBytes env partitions = true) partitions) state := by
  induction partitions generalizing state serverBytesSize with
  | nil =>
    intro _
    refine ⟨_, fun kept => ?_, sound, .of_reading rfl⟩
    simpa [State.takesBytes] using kept
  | cons data rest ih =>
    have started : Stays env (lostBytes + serverBytesSize) 0 state state := ⟨sound, .of_reading rfl⟩
    simp only [acceptPartitions, wp_rules]
    refine ⟨fun unknown => ?_, fun known => ?_⟩
    · have notTaken : state.takesBytes env (data :: rest) =
          (env.directRead && state.takesBytes env rest) := by
        rw [State.takesBytes, if_neg (by simpa using unknown)]
      refine ⟨fun direct => ?_, fun indirect => ?_⟩
      · refine Accepts.cons (.of_reading rfl) (fun keeps => ?_) (ih sound)
        rwa [notTaken, direct] at keeps
      · have broken := @breakConnection_accepts env lostBytes state state (data :: rest)
          (serverBytesSize = 0 ∨ state.takesBytes env (data :: rest) = true) _ _ started
          (fun keeps => by simpa [notTaken, indirect] using keeps) (fun _ => rfl)
        simpa only [wp_bind, wp_pure] using broken
    · have taken : state.takesBytes env (data :: rest) =
          (!data.messages.isEmpty && data.messages.all fun message => !message.gapRefused) := by
        rw [State.takesBytes, if_pos (by simpa using known)]
      refine wp_mono (countMessages_counts started) ?_ ?_
      · intro _ counted stays
        change Stays env _ (0 + _) state counted at stays
        rw [Int.zero_add] at stays
        refine ⟨fun empty => ?_, fun _ => ?_⟩
        · have noSize : totalSize data.messages = 0 := by
            rw [isEmpty_iff.mp empty]
            rfl
          have broken := @breakConnection_accepts env lostBytes state counted (data :: rest)
            (serverBytesSize = 0 ∨ state.takesBytes env (data :: rest) = true) _ _ stays
            (fun keeps => by simpa [taken, empty] using keeps) (fun _ => by simp [noSize])
          simpa only [wp_bind, wp_pure] using broken
        · refine wp_imp (acceptData_wp (Stays.sound stays)) ?_
          intro accepted after accepts
          have fate := accepts.2.after_grows (Stays.grows stays)
          refine ⟨fun complete => ?_, fun incomplete _ => ?_⟩
          · rw [complete] at fate
            have noBytes : Sound env (lostBytes + 0) 0 after := by
              rw [Int.add_zero]
              exact accepts.1
            exact Accepts.cons fate (fun _ => .inl rfl) (ih noBytes)
          · rw [Bool.not_eq_true] at incomplete
            exact ⟨_, fun _ => rfl, accepts.1, incomplete ▸ fate⟩
      · exact fun _ _ refused whole => refused (whole data (by simp)).gaps

theorem acceptBatchPartitions_accepts (sound : Sound env lostBytes 0 state) :
    (acceptBatchPartitions env partitions).wp (Accepts env lostBytes state True partitions) state := by
  induction partitions generalizing state with
  | nil => exact fun _ => ⟨_, fun _ => rfl, sound, .of_reading rfl⟩
  | cons data rest ih =>
    have started : Stays env lostBytes 0 state state := ⟨sound, .of_reading rfl⟩
    have breaks {middle : State} {size : Int} (stays : Stays env lostBytes size state middle)
        (noSize : (∀ other ∈ data :: rest, other.Whole) → size = 0) :=
      @breakConnection_accepts env lostBytes state middle (data :: rest) True _ _ stays
        (fun _ => rfl) noSize
    simp only [wp_bind] at breaks
    simp only [acceptBatchPartitions, wp_rules]
    refine ⟨fun _ => breaks started fun _ => rfl, fun _ => ?_⟩
    refine wp_mono (countBatchMessages_counts started) ?_ ?_
    · intro _ counted stays
      change Stays env _ (0 + _) state counted at stays
      rw [Int.zero_add] at stays
      refine ⟨fun empty => breaks stays fun _ => ?_, fun _ => ⟨fun refused => breaks stays fun whole => ?_,
        fun _ => ?_⟩⟩
      · rw [isEmpty_iff.mp empty]
        rfl
      · -- The sizes would stay counted although no info stands for them.
        rw [(whole data (by simp)).cookie] at refused
        contradiction
      · have noBytes : Sound env (lostBytes + 0) (totalSize data.messages) counted := by
          rw [Int.add_zero]
          exact Stays.sound stays
        refine wp_imp (acceptData_wp noBytes) ?_
        intro accepted after accepts
        have fate := accepts.2.after_grows (Stays.grows stays)
        refine ⟨fun complete => ?_, fun incomplete _ => ?_⟩
        · rw [complete] at fate
          exact Accepts.cons fate id (ih accepts.1)
        · rw [Bool.not_eq_true] at incomplete
          exact ⟨_, fun _ => rfl, accepts.1, incomplete ▸ fate⟩
    · exact fun _ _ refused whole => refused (whole data (by simp)).gaps

/-- The contract of an event: nothing is lost if the conditions hold. -/
abbrev Ends (env : Environment) (lostBytes : Int) (keepsBytes keepsSizes : Prop) :
    Contract Exception Assertion State Unit where
  returns _ after := keepsSizes → ∃ bytes, (keepsBytes → bytes = lostBytes) ∧ Steady env bytes after
  raises _ _ := ¬ keepsSizes
  stops := Tolerated

theorem Steady.ends {keepsBytes keepsSizes : Prop} (steady : Steady env lostBytes state)
    (_ : keepsSizes) : ∃ bytes, (keepsBytes → bytes = lostBytes) ∧ Steady env bytes state :=
  ⟨lostBytes, fun _ => rfl, steady⟩

theorem Accepts.ends {keepsBytes fewerBytes : Prop} {code : Session Bool} (proper : Proper before)
    (fewer : fewerBytes → keepsBytes)
    (accepts : code.wp (Accepts env lostBytes before keepsBytes partitions) state) :
    (do
      Code.when (← code) (readNext env) : Session Unit).wp
      (Ends env lostBytes fewerBytes (∀ data ∈ partitions, data.Whole)) state := by
  rw [wp_bind]
  refine wp_imp accepts ?_
  intro taken after accepted
  simp only [wp_when]
  refine ⟨fun complete => ?_, fun incomplete whole => ?_⟩
  · obtain ⟨bytes, kept, sound, fate⟩ := accepted (.inl complete)
    rw [complete] at fate
    exact wp_mono (readNext_steady sound (Grows.proper fate proper))
      (fun _ _ steady _ => ⟨bytes, fun keeps => kept (fewer keeps), steady⟩) (by simp)
  · obtain ⟨bytes, kept, sound, fate⟩ := accepted (.inr whole)
    rw [incomplete] at fate
    exact ⟨bytes, fun keeps => kept (fewer keeps), Halts.steady fate proper sound⟩

def State.reads (state : State) : Bool := !state.closing && !state.aborting

theorem onReadResponse_ends {bytesSize : Nat} (steady : Steady env lostBytes state) :
    (onReadResponse env bytesSize partitions).wp (Ends env lostBytes
        (state.reads = true → bytesSize = 0 ∨ state.takesBytes env partitions = true)
        (∀ data ∈ partitions, data.Whole)) state := by
  have proper : Proper
      { state with readSizeServerDelta := state.readSizeServerDelta - bytesSize } :=
    ⟨steady.prompt.proper.requests, steady.prompt.proper.connecting⟩
  rw [onReadResponse, wp_bind]
  simp only [wp_ite]
  refine ⟨fun _ => steady.ends, fun continues => ?_⟩
  have reads : state.reads = true := by
    simpa [State.reads] using continues
  have arrived : Sound env (lostBytes + bytesSize) 0
      { state with readSizeServerDelta := state.readSizeServerDelta - bytesSize } := by
    refine { steady.sound with budget := fun running protocol => ?_ }
    have equal := steady.sound.budget running protocol
    change state.readSizeBudget + (state.readSizeServerDelta - bytesSize) + state.serverHeld +
      (lostBytes + bytesSize) = _
    omega
  have same : ∀ partitions, State.takesBytes env
      { state with readSizeServerDelta := state.readSizeServerDelta - bytesSize } partitions =
        state.takesBytes env partitions := by
    intro partitions
    induction partitions with
    | nil => rfl
    | cons data rest ih => rw [State.takesBytes, State.takesBytes, ih]
  have accepted := @acceptPartitions_accepts env lostBytes _ partitions bytesSize arrived
  rw [same, Int.natCast_eq_zero] at accepted
  rw [wp_bind]
  exact Accepts.ends proper (fun keeps => keeps reads) accepted

theorem onDataBatch_ends (steady : Steady env lostBytes state) :
    (onDataBatch env partitions).wp (Ends env lostBytes True (∀ data ∈ partitions, data.Whole))
      state := by
  rw [onDataBatch, wp_bind]
  simp only [wp_ite]
  exact ⟨fun _ => steady.ends,
    fun _ => Accepts.ends steady.prompt.proper id (acceptBatchPartitions_accepts steady.sound)⟩

theorem onDirectReadDone_empty_steady (partitionSession bytesSize : Nat)
    (steady : Steady env lostBytes state) :
    (onDirectReadDone env partitionSession bytesSize none).wp (Quiet (Steady env lostBytes)) state := by
  simp only [onDirectReadDone, wp_rules]
  refine ⟨fun _ => steady, fun _ => ?_⟩
  refine readNext_steady { steady.sound with budget := fun running protocol => ?_ }
    ⟨steady.prompt.proper.requests, steady.prompt.proper.connecting⟩
  have equal := steady.sound.budget running protocol
  change state.readSizeBudget + bytesSize + (state.readSizeServerDelta - bytesSize) +
    state.serverHeld + lostBytes = _
  omega

end YdbSdk.Topic.ReadFlow
