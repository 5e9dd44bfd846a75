import YdbSdk.Grpc.StreamOrder

namespace YdbSdk.Grpc

open YdbSdk.Control Code

/-! # The processor of a server stream

`TStreamRequestReadProcessor` is the read side of the other processor: `Start`,
`ReadInitialMetadata`, `Read` and `AddFinishedCallback` are the same, and `Finish` ends the stream
without asking for writes.  It is modelled on the same state, whose write side stays empty.
-/

namespace Reader

def cancel : Processor Unit := do
  .update fun state => { state with cancelled := true }
  let state ← .get
  .when (state.started && !state.readFinished) do
    .when (!state.readActive) do
      .update fun state => { state with readFinished := true }
      postFinish

/-- `Finish` is posted also when the stream is ending already. -/
def finish (callback : Nat) : Processor Unit := do
  give [callback]
  let state ← .get
  .require (!state.readActive) .multipleReads
  if !state.finished then
    .update fun state =>
      { state with readActive := true, finishCallback := some callback, readFinished := true }
    postFinish
  else call callback state.finishedStatus

def onReadDone (ok : Bool) : Processor Unit := do
  .update fun state => { state with posted := { state.posted with read := false } }
  let state ← .get
  .require state.readActive .unexpectedReadDone
  .require (!state.readFinished) .unexpectedReadFinished
  .when (!ok || state.cancelled) do
    .update fun state => { state with readFinished := true }
    postFinish
  .when ok reportRead

def onStartDone (ok : Bool) : Processor Unit := do
  .update fun state =>
    { state with started := true, posted := { state.posted with connect := false } }
  let state ← .get
  if !ok || state.cancelled then
    .update fun state => { state with readFinished := true }
    postFinish
  else
    .update fun state => { state with connectedCallback := none, handed := true }
    callIfAny state.connectedCallback .ok

def onFinished (ok : Bool) (serverStatus : GrpcStatus) : Processor Unit := do
  .update fun state =>
    { state with
      posted := { state.posted with finish := false }
      finished := true
      finishedOk := ok
      status := serverStatus }
  let state ← .get
  let status := state.closingStatus ok serverStatus
  .update fun state => { state with finishedCallbacks := [] }
  callAll state.finishedCallbacks status
  finishReads status

inductive Event where
  | start (connected : Nat) (context : Bool)
  | cancel
  | readInitialMetadata (callback : Nat)
  | read (callback : Nat)
  | finish (callback : Nat)
  | addFinishedCallback (callback : Nat)
  | onStartDone (ok : Bool)
  | onReadDone (ok : Bool)
  | onFinished (ok : Bool) (serverStatus : GrpcStatus)
deriving DecidableEq

def react : Event → Processor Unit
  | .start connected context => start connected context
  | .cancel => cancel
  | .readInitialMetadata callback => readInitialMetadata callback
  | .read callback => read callback
  | .finish callback => finish callback
  | .addFinishedCallback callback => addFinishedCallback callback
  | .onStartDone ok => onStartDone ok
  | .onReadDone ok => onReadDone ok
  | .onFinished ok serverStatus => onFinished ok serverStatus

def Event.paired : Event → Grpc.Event
  | .start connected context => .start connected context
  | .cancel => .cancel
  | .readInitialMetadata callback => .readInitialMetadata callback
  | .read callback => .read callback
  | .finish callback => .finish callback
  | .addFinishedCallback callback => .addFinishedCallback callback
  | .onStartDone ok => .onConnected ok
  | .onReadDone ok => .onReadDone ok
  | .onFinished ok serverStatus => .onFinished ok serverStatus

def EndsOnce (state : State) : Event → Prop
  | .finish _ => state.readFinished = true → state.finished = true
  | _ => True

instance (state : State) (event : Event) : Decidable (EndsOnce state event) := by
  cases event <;> unfold EndsOnce <;> infer_instance

/-! ## The pair -/

/-- The other processor without writes, its write side closed along with the read side. -/
def twin (state : State) : State :=
  { state with writeActive := false, writeQueue := [], writeFinished := state.readFinished }

def Paired (state : State) : Prop := Sound (twin state)

abbrev staysPaired : Contract Empty Assertion State Unit := .keeping Paired fun _ => False

variable {state : State} {callback : Nat} {ok : Bool}

theorem cancel_paired (sound : Paired state) : cancel.wp staysPaired state := by
  obtain ⟨consistent, accounted, ordered⟩ := sound
  simp only [cancel, postFinish, wp_rules]
  refine ⟨fun ends => ⟨fun idle => ⟨?_, accounted.frame rfl rfl rfl, ordered.undisturbed ⟨rfl, fun _ => rfl⟩⟩,
    fun _ => ⟨{ consistent with }, accounted.frame rfl rfl rfl, ordered.undisturbed ⟨rfl, id⟩⟩⟩,
    fun _ => ⟨{ consistent with }, accounted.frame rfl rfl rfl, ordered.undisturbed ⟨rfl, id⟩⟩⟩
  cases consistent
  constructor <;> first | assumption | grind [twin]

theorem callIfAny_paired {callback : Option Nat}
    (kept : (callIfAny callback status).wp staysSound (twin state)) :
    (callIfAny callback status).wp staysPaired state := by
  cases callback <;> exact kept

theorem finishReads_paired (kept : (finishReads status).wp staysSound (twin state)) :
    (finishReads status).wp staysPaired state := by
  simp only [finishReads, wp_rules] at kept ⊢
  cases connected : state.connectedCallback with
  | some callback =>
    rw [show (twin state).connectedCallback = some callback from connected] at kept
    simp only [wp_rules] at kept ⊢
    exact kept
  | none =>
    rw [show (twin state).connectedCallback = none from connected] at kept
    simp only [wp_rules] at kept ⊢
    refine ⟨fun active => ?_, kept.2⟩
    have called := kept.1 active
    cases reading : state.readCallback with
    | some callback =>
      rw [show (twin state).readCallback = some callback from reading] at called
      exact called
    | none =>
      rw [show (twin state).readCallback = none from reading] at called
      exact callIfAny_paired called

theorem readsClosed_twin (state : State) :
    (twin state).readsClosed =
      twin { state with
        readFinished := true
        posted := { state.posted with finish := true }
        finishes := state.finishes + 1 } := by
  simp [State.readsClosed, twin]

theorem react_paired {event : Event} (sound : Paired state)
    (promised : Promised state event.paired) (once : EndsOnce state event) :
    (react event).wp staysPaired state := by
  cases event with
  | start connected context =>
    have kept := @start_sound (twin state) connected context sound promised
    simp only [react, start, give, call, wp_rules] at kept ⊢
    exact kept
  | cancel => exact cancel_paired sound
  | readInitialMetadata callback =>
    have kept := @readInitialMetadata_sound (twin state) callback sound promised.1 promised.2
    simp only [react, readInitialMetadata, give, postRead, call, wp_rules] at kept ⊢
    exact kept
  | read callback =>
    have kept := @read_sound (twin state) callback sound promised.1 promised.2
    simp only [react, read, give, postRead, call, wp_rules] at kept ⊢
    exact kept
  | finish callback =>
    have kept := @finish_sound (twin state) callback sound promised.1 promised.2
    simp only [react, finish, Grpc.finish, give, closeReads_wp, postFinish, call, wp_rules] at kept ⊢
    refine ⟨fun idle => ⟨fun goes => ?_, (kept.1 idle).2⟩, kept.2⟩
    have isOpen : state.readFinished = false := by
      have ends := once
      simp_all [EndsOnce]
    have closed := ((kept.1 idle).1 goes).1 (by simp [twin, isOpen])
    change Sound (twin { state with
      given := state.given ++ [callback], readActive := true, finishCallback := some callback }).readsClosed
      at closed
    rw [readsClosed_twin] at closed
    exact closed
  | addFinishedCallback callback =>
    have kept := @addFinishedCallback_sound (twin state) callback sound
    simp only [react, addFinishedCallback, give, call, wp_rules] at kept ⊢
    exact kept
  | onStartDone ok =>
    have kept := @onConnected_sound (twin state) ok sound promised
    simp only [react, onStartDone, onConnected, postFinish, wp_rules] at kept ⊢
    exact ⟨kept.1, fun goes => callIfAny_paired (kept.2 goes)⟩
  | onReadDone ok =>
    have kept := @onReadDone_sound (twin state) ok sound promised
    simp only [react, onReadDone, Grpc.onReadDone, closeReads_wp, postFinish, reportRead,
      wp_rules] at kept ⊢
    refine ⟨fun active => ⟨fun isOpen => ⟨fun ends => ?_, fun goes => ?_⟩, (kept.1 active).2⟩, kept.2⟩
    · have closed := ((kept.1 active).1 isOpen).1 ends
      rw [show State.readsClosed { twin state with posted := { (twin state).posted with read := false } } = _ from
        readsClosed_twin { state with posted := { state.posted with read := false } }] at closed
      exact ⟨fun good => callIfAny_paired (closed.1 good), closed.2⟩
    · have going := ((kept.1 active).1 isOpen).2 goes
      exact ⟨fun good => callIfAny_paired (going.1 good), going.2⟩
  | onFinished ok serverStatus =>
    have kept := @onFinished_sound (twin state) ok serverStatus sound promised
    have empty : (twin state).writeQueue = [] := rfl
    simp only [react, onFinished, Grpc.onFinished, callAll, empty, List.filterMap_nil, List.map_nil,
      List.append_nil, wp_rules] at kept ⊢
    exact finishReads_paired kept

end Reader

end YdbSdk.Grpc
