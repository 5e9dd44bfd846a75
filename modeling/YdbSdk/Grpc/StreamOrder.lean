import YdbSdk.Grpc.StreamFlags

namespace YdbSdk.Grpc

open YdbSdk.Control Code List

/-! # The order of the writes -/

def State.starting (state : State) : List StreamOp :=
  if state.startWritesDone then [.writesDone] else []

/-- What was taken is on the stream or waits behind it, in the order of the calls. -/
structure Ordered (state : State) : Prop where
  sent : state.onStream <+: state.accepted
  waiting : state.writeFinished = false →
    state.accepted = state.onStream ++ (state.starting ++ state.writeQueue.map WriteItem.op)
  resting : state.writeActive = false → state.writeFinished = false → state.writeQueue = []

variable {state after : State} {callback : Option Nat}

def State.writeSide (state : State) : List StreamOp × List StreamOp × Bool × Bool × List WriteItem :=
  (state.onStream, state.accepted, state.startWritesDone, state.writeActive, state.writeQueue)

/-- Code that leaves the write side alone, or closes it. -/
def undisturbed : Code.Motion State :=
  .both (.fixed State.writeSide) (.keeping fun state => state.writeFinished = true)

theorem Ordered.undisturbed (ordered : Ordered state) (moved : undisturbed.moves state after) :
    Ordered after := by
  obtain ⟨sides, closed⟩ := moved
  obtain ⟨stream, accepted, starting, active, queue⟩ : after.onStream = state.onStream ∧
      after.accepted = state.accepted ∧ after.startWritesDone = state.startWritesDone ∧
      after.writeActive = state.writeActive ∧ after.writeQueue = state.writeQueue := by
    simpa [Code.Motion.fixed, State.writeSide] using sides
  have wasOpen : after.writeFinished = false → state.writeFinished = false := by
    intro isOpen
    cases finished : state.writeFinished with
    | false => rfl
    | true => rw [closed finished] at isOpen; contradiction
  constructor
  · rw [stream, accepted]
    exact ordered.sent
  · intro isOpen
    rw [stream, accepted, queue, State.starting, starting]
    exact ordered.waiting (wasOpen isOpen)
  · intro inactive isOpen
    rw [queue]
    exact ordered.resting (active.symm.trans inactive) (wasOpen isOpen)

theorem Ordered.enqueue (ordered : Ordered state)
    (isOpen : state.writeFinished = false) (active : state.writeActive = true)
    (stream : after.onStream = state.onStream) (accepted : after.accepted = state.accepted ++ [op])
    (starting : after.startWritesDone = state.startWritesDone)
    (queue : after.writeQueue = state.writeQueue ++ [⟨callback, op⟩])
    (stillActive : after.writeActive = state.writeActive) : Ordered after := by
  constructor
  · rw [stream, accepted]
    exact ordered.sent.trans (prefix_append _ _)
  · rw [stream, accepted, queue, State.starting, starting, ordered.waiting isOpen]
    simp [State.starting]
  · intro inactive
    rw [stillActive, active] at inactive
    contradiction

theorem Ordered.proceed (consistent : Consistent state) (ordered : Ordered state)
    (isOpen : state.writeFinished = false) (inactive : ¬ state.writeActive = true)
    (accepted : after.accepted = state.accepted ++ [op])
    (stream : after.onStream ++ after.starting = state.onStream ++ [op])
    (queue : after.writeQueue = state.writeQueue) : Ordered after := by
  have rests : state.writeActive = false := by simpa using inactive
  have empty : state.writeQueue = [] := ordered.resting rests isOpen
  have unstarted : state.startWritesDone = false := consistent.unstarted inactive
  have whole : state.accepted = state.onStream := by
    simpa [State.starting, unstarted, empty] using ordered.waiting isOpen
  constructor
  · rw [accepted, whole, ← stream]
    exact prefix_append _ _
  · rw [accepted, queue, empty, whole, ← stream]
    simp
  · intro _ _
    rw [queue, empty]

structure Sound (state : State) : Prop where
  consistent : Consistent state
  accounted : Accounted [] state
  ordered : Ordered state

theorem sound_start : Sound {} := by
  refine ⟨consistent_start, fun callback => ?_, ⟨prefix_refl _, fun _ => ?_, fun _ _ => rfl⟩⟩
  · simp [State.pending]
  · simp [State.starting]

theorem Sound.given (sound : Sound state) (callbacks : List Nat) :
    Consistent { state with given := state.given ++ callbacks } ∧
      Accounted callbacks { state with given := state.given ++ callbacks } ∧
      Ordered { state with given := state.given ++ callbacks } :=
  ⟨sound.consistent.given, sound.accounted.give, sound.ordered.undisturbed ⟨rfl, id⟩⟩

abbrev staysSound : Contract Empty Assertion State Unit := .keeping Sound fun _ => False

theorem call_sound {callback : Nat} {status : GrpcStatus} (consistent : Consistent state)
    (accounted : Accounted [callback] state) (ordered : Ordered state) :
    (call callback status).wp staysSound state :=
  ⟨consistent.called, @Accounted.call state [callback] [] status accounted,
    ordered.undisturbed ⟨rfl, id⟩⟩

theorem callIfAny_sound {status : GrpcStatus} (consistent : Consistent state)
    (accounted : Accounted callback.toList state) (ordered : Ordered state) :
    (callIfAny callback status).wp staysSound state := by
  cases callback with
  | none => exact ⟨consistent, accounted, ordered⟩
  | some callback => exact call_sound consistent accounted ordered

theorem start_sound {connected : Nat} {context : Bool} (sound : Sound state)
    (unlaunched : state.launched = false) : (start connected context).wp staysSound state := by
  obtain ⟨consistent, given, ordered⟩ := sound.given [connected]
  have noCallback := (sound.consistent.unlaunched unlaunched).2.2
  simp only [start, give, wp_rules]
  refine ⟨fun _ => ⟨?_, given.move rfl rfl fun callback => ?_, ordered.undisturbed ⟨rfl, id⟩⟩,
    fun _ => call_sound ?_ (given.frame rfl rfl rfl) (ordered.undisturbed ⟨rfl, id⟩)⟩
  case refine_2 =>
      simp only [State.pending, noCallback, count_append, Option.toList, count_nil]
      omega
  all_goals
    cases consistent
    constructor <;> first | assumption | grind

theorem cancel_sound (sound : Sound state) : cancel.wp staysSound state := by
  obtain ⟨consistent, accounted, ordered⟩ := sound
  simp only [cancel, postFinish, wp_rules]
  refine ⟨fun _ => ⟨fun _ => ⟨fun _ => ⟨fun _ => ?_, fun _ => ?_⟩, fun _ => ⟨fun _ => ?_, fun _ => ?_⟩⟩,
    fun _ => ⟨fun _ => ⟨fun _ => ?_, fun _ => ?_⟩, fun _ => ⟨fun _ => ?_, fun _ => ?_⟩⟩⟩, fun _ => ?_⟩
  all_goals
    refine ⟨?_, accounted.frame rfl rfl rfl, ordered.undisturbed ⟨rfl, fun closed => by first | rfl | exact closed⟩⟩
    cases consistent
    constructor <;> first | assumption | grind

theorem write_sound {request : Nat} (sound : Sound state) (handed : state.handed = true) :
    (write request callback).wp staysSound state := by
  obtain ⟨consistent, given, ordered⟩ := sound.given callback.toList
  have dropped := fun status => @callIfAny_sound _ callback status consistent given ordered
  simp only [write, give, accept, enqueue, postWrite, wp_rules]
  refine ⟨fun _ => dropped _, fun _ => ⟨fun _ => dropped _, fun _ => ⟨fun _ => dropped _,
    fun isOpen => ?_⟩⟩⟩
  have unfinished : state.writeFinished = false := by simp_all
  refine ⟨fun active => ⟨?_, given.enqueue rfl rfl rfl, ordered.enqueue unfinished active rfl rfl rfl rfl rfl⟩,
    fun inactive => ⟨?_, given.proceed consistent inactive rfl rfl rfl,
      ordered.proceed consistent unfinished inactive rfl ?_ rfl⟩⟩
  case refine_3 => simp [State.starting, sound.consistent.unstarted inactive]
  all_goals
    cases consistent
    constructor <;> first | assumption | grind

theorem writesDone_sound (sound : Sound state) (handed : state.handed = true) :
    (writesDone callback).wp staysSound state := by
  obtain ⟨consistent, given, ordered⟩ := sound.given callback.toList
  have dropped := fun status => @callIfAny_sound _ callback status consistent given ordered
  simp only [writesDone, give, accept, enqueue, wp_rules]
  refine ⟨fun _ => dropped _, fun _ => ⟨fun _ => dropped _, fun _ => ⟨fun _ => dropped _,
    fun isOpen => ?_⟩⟩⟩
  have unfinished : state.writeFinished = false := by simp_all
  refine ⟨fun active => ⟨?_, given.enqueue rfl rfl rfl, ordered.enqueue unfinished active rfl rfl rfl rfl rfl⟩,
    fun inactive => ⟨?_, given.proceed consistent inactive rfl rfl rfl,
      ordered.proceed consistent unfinished inactive rfl rfl rfl⟩⟩
  all_goals
    cases consistent
    constructor <;> first | assumption | grind

theorem postWritesDone_sound (sound : Sound state) : postWritesDone.wp staysSound state := by
  obtain ⟨consistent, accounted, ordered⟩ := sound
  simp only [postWritesDone, wp_rules]
  refine ⟨fun starting => ⟨?_, accounted.frame rfl rfl rfl, ?_⟩, fun _ => ⟨consistent, accounted, ordered⟩⟩
  · cases consistent
    constructor <;> first | assumption | grind
  · have isOpen : state.writeFinished = false :=
      consistent.writing (by simp [consistent.writes, starting])
    have waiting := ordered.waiting isOpen
    simp only [State.starting, starting] at waiting
    refine ⟨?_, fun _ => ?_, ordered.resting⟩
    · rw [waiting]
      simp
    · rw [waiting]
      simp [State.starting]

theorem readInitialMetadata_sound {callback : Nat} (sound : Sound state)
    (handed : state.handed = true) (free : state.reading = false) :
    (readInitialMetadata callback).wp staysSound state := by
  obtain ⟨consistent, given, ordered⟩ := sound.given [callback]
  obtain ⟨noRead, noFinish⟩ := State.reading_eq_false.1 free
  simp only [readInitialMetadata, give, postRead, wp_rules]
  refine ⟨fun _ => ⟨fun _ => ⟨fun _ => ?_, fun _ => ?_⟩,
    fun _ => ⟨fun _ => call_sound consistent given ordered, fun _ => call_sound consistent given ordered⟩⟩,
    fun active => by simp [sound.consistent.inactive free] at active⟩
  all_goals
    refine ⟨?_, given.readCalled noRead rfl rfl rfl, ordered.undisturbed ⟨rfl, id⟩⟩
    cases consistent
    constructor <;> first | assumption | grind [State.reading]

theorem read_sound {callback : Nat} (sound : Sound state) (handed : state.handed = true)
    (free : state.reading = false) : (read callback).wp staysSound state := by
  obtain ⟨consistent, given, ordered⟩ := sound.given [callback]
  obtain ⟨noRead, noFinish⟩ := State.reading_eq_false.1 free
  simp only [read, give, postRead, wp_rules]
  refine ⟨fun _ => ⟨fun _ => ⟨fun _ => ?_, fun _ => ?_⟩,
    fun _ => call_sound consistent given ordered⟩,
    fun active => by simp [sound.consistent.inactive free] at active⟩
  all_goals
    refine ⟨?_, given.readCalled noRead rfl rfl rfl, ordered.undisturbed ⟨rfl, id⟩⟩
    cases consistent
    constructor <;> first | assumption | grind [State.reading]

theorem finish_sound {callback : Nat} (sound : Sound state) (handed : state.handed = true)
    (free : state.reading = false) : (finish callback).wp staysSound state := by
  obtain ⟨consistent, given, ordered⟩ := sound.given [callback]
  obtain ⟨noRead, noFinish⟩ := State.reading_eq_false.1 free
  simp only [finish, give, closeReads_wp, wp_rules]
  refine ⟨fun _ => ⟨fun _ => ⟨fun _ => ⟨?_, given.move rfl rfl fun other => ?_,
      ordered.undisturbed ⟨rfl, State.readsClosed_closed⟩⟩,
    fun _ => ⟨?_, given.move rfl rfl fun other => ?_, ordered.undisturbed ⟨rfl, id⟩⟩⟩,
    fun _ => call_sound consistent given ordered⟩,
    fun active => by simp [sound.consistent.inactive free] at active⟩
  case refine_2 | refine_4 =>
      simp only [State.readsClosed, State.pending, noFinish, count_append, Option.toList_some,
        Option.toList_none, count_nil]
      omega
  all_goals
    cases consistent
    constructor <;> first | assumption | grind [State.reading, State.readsClosed]

theorem addFinishedCallback_sound {callback : Nat} (sound : Sound state) :
    (addFinishedCallback callback).wp staysSound state := by
  obtain ⟨consistent, given, ordered⟩ := sound.given [callback]
  have called := fun status => @call_sound _ callback status consistent given ordered
  simp only [addFinishedCallback, wp_rules]
  refine ⟨fun _ => ⟨?_, given.move rfl rfl fun other => ?_, ordered.undisturbed ⟨rfl, id⟩⟩,
    fun _ => ⟨fun _ => called _, fun _ => ⟨fun _ => called _, fun _ => called _⟩⟩⟩
  · cases consistent
    constructor <;> first | assumption | grind
  · simp only [State.pending, count_append, count_nil]
    omega

theorem onConnected_sound {ok : Bool} (sound : Sound state)
    (posted : state.posted.connect = true) : (onConnected ok).wp staysSound state := by
  obtain ⟨consistent, accounted, ordered⟩ := sound
  simp only [onConnected, postFinish, wp_rules]
  refine ⟨fun _ => ⟨?_, accounted.frame rfl rfl rfl, ordered.undisturbed ⟨rfl, fun _ => rfl⟩⟩,
    fun _ => callIfAny_sound ?_ (accounted.move rfl rfl fun other => ?_)
      (ordered.undisturbed ⟨rfl, id⟩)⟩
  case refine_3 =>
      simp only [State.pending, count_append, Option.toList_none, count_nil]
      omega
  all_goals
    cases consistent
    constructor <;> first | assumption | grind

theorem onReadDone_sound {ok : Bool} (sound : Sound state) (posted : state.posted.read = true) :
    (onReadDone ok).wp staysSound state := by
  obtain ⟨consistent, accounted, ordered⟩ := sound
  obtain ⟨active, isOpen⟩ : state.readActive = true ∧ state.readFinished = false := by
    simpa [consistent.reads] using posted
  simp only [onReadDone, reportRead, closeReads_wp, wp_rules, active, isOpen]
  refine ⟨fun _ => ⟨fun _ => ⟨fun _ => ⟨fun _ => callIfAny_sound ?_ (accounted.move rfl rfl fun other => ?_)
      (ordered.undisturbed ⟨rfl, State.readsClosed_closed⟩),
    fun _ => ⟨?_, accounted.frame rfl rfl rfl, ordered.undisturbed ⟨rfl, State.readsClosed_closed⟩⟩⟩,
    fun _ => ⟨fun _ => callIfAny_sound ?_ (accounted.move rfl rfl fun other => ?_)
      (ordered.undisturbed ⟨rfl, id⟩), fun failed => ?_⟩⟩, by simp⟩, by simp⟩
  case refine_2 | refine_5 =>
      simp only [State.readsClosed, State.pending, count_append, Option.toList_none, count_nil]
      omega
  case refine_6 => simp_all
  all_goals
    cases consistent
    constructor <;> first | assumption | grind [State.reading, State.readsClosed]

theorem goOn_sound {ok wasWritesDone : Bool} {queue : List WriteItem} (consistent : Consistent state)
    (posted : state.posted.write = true) (accounted : Accounted owed (state.written queue))
    (sent : state.onStream <+: state.accepted)
    (waiting : ok = true → state.accepted = state.onStream ++ queue.map WriteItem.op) :
    (goOn ok wasWritesDone).wp ⟨fun _ after => Consistent after ∧ Accounted owed after ∧ Ordered after,
      fun _ _ => False, fun _ => False⟩ (state.written queue) := by
  have unstarted := consistent.unstarted_of_posted posted
  have closed : Consistent (state.written queue).writesClosed ∧
      Accounted owed (state.written queue).writesClosed ∧
      Ordered (state.written queue).writesClosed := by
    refine ⟨?_, accounted.frame rfl rfl rfl, sent, by rintro ⟨⟩, by rintro _ ⟨⟩⟩
    cases consistent
    constructor <;> first | assumption | grind [State.writesClosed, State.written]
  simp only [goOn, closeWrites_wp, wp_rules]
  refine ⟨fun _ => closed, fun goes => ⟨fun _ => closed, fun _ => ?_⟩⟩
  have taken := waiting (by simp_all)
  cases queue with
  | nil =>
    simp only [State.written, postFinish, wp_rules]
    refine ⟨fun _ => ⟨?_, accounted.frame rfl rfl rfl, sent, by simp, by simp⟩,
      fun _ => ⟨?_, accounted.frame rfl rfl rfl, sent, fun _ => ?_, fun _ _ => rfl⟩⟩
    case refine_3 => simpa [State.starting, unstarted] using taken
    all_goals
      cases consistent
      constructor <;> first | assumption | grind
  | cons next rest =>
    obtain ⟨callback, op⟩ := next
    have first : ∀ other, (List.filterMap WriteItem.callback (⟨callback, op⟩ :: rest)).count other =
        callback.toList.count other + (rest.filterMap WriteItem.callback).count other := by
      intro other
      cases callback <;> simp [count_cons, Nat.add_comm]
    cases op <;>
    · simp only [State.written, writeNext, postWrite, wp_rules]
      refine ⟨?_, accounted.move rfl rfl fun other => ?_, ?_, fun _ => ?_, fun inactive => ?_⟩
      · cases consistent
        constructor <;> first | assumption | grind
      · have same := first other
        simp only [State.written, State.pending, count_append, Option.toList_none, count_nil]
        omega
      · rw [taken]
        simp
      · rw [taken]
        simp [State.starting, unstarted]
      · simp [consistent.writes, posted] at inactive

theorem onWriteDone_sound {ok : Bool} (sound : Sound state) (posted : state.posted.write = true) :
    (onWriteDone ok).wp staysSound state := by
  obtain ⟨consistent, accounted, ordered⟩ := sound
  have active : state.writeActive = true := by simp [consistent.writes, posted]
  have waiting := ordered.waiting (consistent.writing active)
  simp only [State.starting, consistent.unstarted_of_posted posted] at waiting
  rw [onWriteDone_wp consistent posted, wp_bind]
  refine wp_mono (goOn_sound consistent posted accounted.written ordered.sent ?_) ?_ nofun
  · intro well
    subst well
    exact waiting
  · intro _ after kept
    cases ok with
    | true => exact callIfAny_sound kept.1 kept.2.1 kept.2.2
    | false => exact ⟨kept.1, kept.2.1, kept.2.2⟩

theorem Consistent.close {ok : Bool} {status : GrpcStatus} {called : List (Nat × GrpcStatus)}
    (consistent : Consistent state) (posted : state.posted.finish = true) :
    Consistent
      { state with
        posted := { state.posted with finish := false }
        finished := true
        finishedOk := ok
        status := status
        writeQueue := []
        finishedCallbacks := []
        called := called
        connectedCallback := none
        readActive := false
        readCallback := none
        finishCallback := none } := by
  cases consistent
  constructor <;> first | assumption | grind [State.reading]

theorem onFinished_sound {ok : Bool} {serverStatus : GrpcStatus} (sound : Sound state)
    (posted : state.posted.finish = true) : (onFinished ok serverStatus).wp staysSound state := by
  obtain ⟨consistent, accounted, ordered⟩ := sound
  have closed : state.writeFinished = true := by
    have ending := consistent.finishing
    simp_all
  have taken : Accounted (state.writeQueue.filterMap WriteItem.callback ++
      (state.finishedCallbacks ++ []))
      { state with
        posted := { state.posted with finish := false }
        finished := true
        finishedOk := ok
        status := serverStatus
        writeQueue := []
        finishedCallbacks := [] } := by
    refine accounted.move rfl rfl fun other => ?_
    simp only [State.pending, count_append, filterMap_nil, count_nil]
    omega
  have shut : ∀ after : State, after.onStream = state.onStream → after.accepted = state.accepted →
      after.writeFinished = state.writeFinished → after.writeQueue = [] → Ordered after := by
    intro after stream all finished queue
    refine ⟨by rw [stream, all]; exact ordered.sent, fun isOpen => ?_, fun _ _ => queue⟩
    rw [finished, closed] at isOpen
    contradiction
  have called := fun dropped finished =>
    @Accounted.call _ _ _ finished (@Accounted.call _ _ _ dropped taken)
  simp only [onFinished, callAll, finishReads, wp_rules]
  cases connected : state.connectedCallback with
  | some callback =>
    have unhanded : state.handed = false := by
      cases handed : state.handed
      · rfl
      · simp [(consistent.handed handed).2] at connected
    have inactive := (consistent.unhanded unhanded).1
    obtain ⟨noRead, noEnd⟩ := State.reading_eq_false.1 (consistent.reading.symm.trans inactive)
    simp only [wp_rules]
    refine ⟨fun _ => call_sound ?_ ((called _ _).move rfl rfl fun other => ?_) (shut _ rfl rfl rfl rfl),
      fun active => by simp [inactive] at active⟩
    · rw [inactive, noRead, noEnd]
      exact consistent.close posted
    · simp only [State.pending, connected, count_append, Option.toList_some,
        Option.toList_none, count_nil]
      omega
  | none =>
    rw [wp_when]
    refine ⟨fun active => ?_, fun inactive => ⟨?_, (called _ _).frame rfl rfl ?_, shut _ rfl rfl rfl rfl⟩⟩
    · cases reading : state.readCallback with
      | some callback =>
        simp only [wp_rules]
        refine call_sound ?_ ((called _ _).move rfl rfl fun other => ?_) (shut _ rfl rfl rfl rfl)
        · have noEnd := consistent.oneRead.resolve_left (by simp [reading])
          rw [noEnd]
          exact consistent.close posted
        · simp only [State.pending, connected, reading, count_append, Option.toList_some,
            Option.toList_none, count_nil]
          omega
      | none =>
        simp only [wp_rules]
        refine callIfAny_sound ?_ ((called _ _).move rfl rfl fun other => ?_) (shut _ rfl rfl rfl rfl)
        · exact consistent.close posted
        · simp only [State.pending, connected, reading, count_append, Option.toList_none,
            count_nil]
          omega
    · have idle : state.readActive = false := by simpa using inactive
      obtain ⟨noRead, noEnd⟩ := State.reading_eq_false.1 (consistent.reading.symm.trans idle)
      rw [idle, noRead, noEnd]
      exact consistent.close posted
    · simp [State.pending, connected]

theorem react_sound (sound : Sound state) (promised : Promised state event) :
    (react event).wp staysSound state := by
  cases event with
  | start connected context => exact start_sound sound promised
  | cancel => exact cancel_sound sound
  | write request callback => exact write_sound sound promised
  | writesDone callback => exact writesDone_sound sound promised
  | postWritesDone => exact postWritesDone_sound sound
  | readInitialMetadata callback => exact readInitialMetadata_sound sound promised.1 promised.2
  | read callback => exact read_sound sound promised.1 promised.2
  | finish callback => exact finish_sound sound promised.1 promised.2
  | addFinishedCallback callback => exact addFinishedCallback_sound sound
  | onConnected ok => exact onConnected_sound sound promised
  | onReadDone ok => exact onReadDone_sound sound promised
  | onWriteDone ok => exact onWriteDone_sound sound promised
  | onFinished ok serverStatus => exact onFinished_sound sound promised

theorem Consistent.nothing_pending (consistent : Consistent state)
    (finished : state.finished = true) : state.pending = [] := by
  obtain ⟨inactive, queue, callbacks, connected⟩ := consistent.ended finished
  obtain ⟨noRead, noFinish⟩ := State.reading_eq_false.1 (consistent.reading.symm.trans inactive)
  have closed := (consistent.finished finished).2
  have noWrite : state.writeCallback = none := by
    apply consistent.noWriteCallback
    intro active
    rw [consistent.writing active] at closed
    contradiction
  simp [State.pending, queue, callbacks, connected, noRead, noFinish, noWrite]

theorem Consistent.nothing_outstanding (consistent : Consistent state)
    (posted : state.finishes ≠ 0) :
    state.posted.read = false ∧ state.posted.write = false ∧ state.startWritesDone = false := by
  have closed : state.readFinished = true ∧ state.writeFinished = true := by
    have finishes := consistent.finishes
    grind
  have inactive : state.writeActive = false := by
    cases active : state.writeActive with
    | false => rfl
    | true => rw [consistent.writing active] at closed; simp at closed
  have writes := consistent.writes
  simp_all [consistent.reads]

theorem Sound.served (sound : Sound state) :
    state.finishes ≤ 1 ∧
      (∀ callback, (state.called.map Prod.fst).count callback ≤ state.given.count callback) ∧
      (state.finished = true → (state.called.map Prod.fst).Perm state.given) := by
  obtain ⟨consistent, accounted, -⟩ := sound
  refine ⟨?_, fun callback => ?_, fun finished => ?_⟩
  · rw [consistent.finishes]
    split <;> simp
  · have balanced := accounted callback
    omega
  · rw [perm_iff_count]
    intro callback
    have balanced := accounted callback
    rw [consistent.nothing_pending finished] at balanced
    simpa using balanced.symm

/-- A stream with a queued write, a half-close behind it and a read that meets the end. -/
def halfClosedRun : List Event :=
  [.start 1 true, .onConnected true, .addFinishedCallback 2, .write 10 (some 3), .write 11 none,
    .read 4, .writesDone (some 5), .onWriteDone true, .onReadDone true, .read 6, .onWriteDone true,
    .onWriteDone true, .onReadDone false, .onFinished true .ok]

end YdbSdk.Grpc
