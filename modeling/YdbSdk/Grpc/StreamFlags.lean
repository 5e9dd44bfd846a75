import YdbSdk.Grpc.StreamProcessor

namespace YdbSdk.Grpc

open YdbSdk.Control List

/-! # The flags and the callbacks of the stream processor

The flags say which operations are outstanding: a side that is active and not finished
waits for gRPC, and `Finish` is posted when both sides are finished.  A callback that was
passed is called or waits in one place; `owed` are those a section has in its hands.
-/

structure Consistent (state : State) : Prop where
  idle : state.started = false → state.readActive = false ∧ state.readFinished = false ∧
    state.writeActive = false ∧ state.writeFinished = false
  unlaunched : state.launched = false → state.started = false ∧ state.posted.connect = false ∧
    state.connectedCallback = none
  connecting : state.posted.connect = true → state.started = false ∧ state.handed = false
  handed : state.handed = true → state.started = true ∧ state.connectedCallback = none
  unhanded : state.handed = false → state.readActive = false ∧ state.writeActive = false
  reads : state.posted.read = (state.readActive && !state.readFinished)
  writes : state.writeActive = (state.posted.write || state.startWritesDone)
  oneWrite : state.startWritesDone = true → state.posted.write = false
  writing : state.writeActive = true → state.writeFinished = false
  ending : state.readFinished = true → state.writeFinished = true ∨ state.writeActive = true
  finishes : state.finishes = if state.readFinished && state.writeFinished then 1 else 0
  finishing : state.posted.finish = (state.readFinished && state.writeFinished && !state.finished)
  finished : state.finished = true → state.readFinished = true ∧ state.writeFinished = true
  reading : state.readActive = state.reading
  finishCalled : state.finishCallback.isSome = true → state.readFinished = true
  oneRead : state.readCallback = none ∨ state.finishCallback = none
  writeCalled : state.writeCallback.isSome = true → state.writeActive = true
  ended : state.finished = true → state.readActive = false ∧ state.writeQueue = [] ∧
    state.finishedCallbacks = [] ∧ state.connectedCallback = none

theorem consistent_start : Consistent {} := by
  constructor <;> simp [State.reading]

variable {state after : State} {owed left : List Nat} {callback : Nat} {ok : Bool}
  {contract : Contract Empty Assertion State Unit}

theorem State.reading_eq_false :
    state.reading = false ↔ state.readCallback = none ∧ state.finishCallback = none := by
  simp [State.reading]

theorem Consistent.inactive (consistent : Consistent state) (free : state.reading = false) :
    state.readActive = false :=
  consistent.reading.trans free

theorem Consistent.unstarted (consistent : Consistent state)
    (inactive : ¬ state.writeActive = true) : state.startWritesDone = false := by
  have idle := consistent.writes
  simp_all

theorem Consistent.unstarted_of_posted (consistent : Consistent state)
    (posted : state.posted.write = true) : state.startWritesDone = false := by
  cases starting : state.startWritesDone with
  | false => rfl
  | true => rw [consistent.oneWrite starting] at posted; contradiction

theorem Consistent.given (consistent : Consistent state) :
    Consistent { state with given := callbacks } := { consistent with }

theorem Consistent.called (consistent : Consistent state) :
    Consistent { state with called := callbacks } := { consistent with }

def State.readsClosed (state : State) : State :=
  { state with
    readFinished := true
    writeFinished := state.writeFinished || !state.writeActive
    posted := { state.posted with
      finish := state.posted.finish || (state.writeFinished || !state.writeActive) }
    finishes := state.finishes + if state.writeFinished || !state.writeActive then 1 else 0 }

theorem closeReads_wp : closeReads.wp contract state ↔ contract.returns () state.readsClosed := by
  cases active : state.writeActive <;> cases closed : state.writeFinished <;>
    simp [closeReads, postFinish, State.readsClosed, active, closed]

theorem State.readsClosed_closed (closed : state.writeFinished = true) :
    state.readsClosed.writeFinished = true := by
  simp [State.readsClosed, closed]

def State.writesClosed (state : State) : State :=
  { state with
    writeActive := false
    writeFinished := true
    posted := { state.posted with finish := state.posted.finish || state.readFinished }
    finishes := state.finishes + if state.readFinished then 1 else 0 }

theorem closeWrites_wp :
    closeWrites.wp contract state ↔ contract.returns () state.writesClosed := by
  cases closed : state.readFinished <;> simp [closeWrites, postFinish, State.writesClosed, closed]

def State.written (state : State) (queue : List WriteItem) : State :=
  { state with
    posted := { state.posted with write := false }
    writeDonePending := false
    writeCallback := none
    writeQueue := queue }

def State.leftQueue (state : State) : Bool → List WriteItem
  | true => state.writeQueue
  | false =>
    (state.writeCallback.map fun callback =>
      ⟨some callback, if state.writeDonePending then .writesDone else .write 0⟩).toList ++
        state.writeQueue

theorem onWriteDone_wp (consistent : Consistent state) (posted : state.posted.write = true) :
    (onWriteDone ok).wp contract state ↔
      (goOn ok state.writeDonePending >>= fun _ => Code.when ok (callIfAny state.writeCallback .ok)).wp
        contract (state.written (state.leftQueue ok)) := by
  have active : state.writeActive = true := by simp [consistent.writes, posted]
  have isOpen : state.writeFinished = false := consistent.writing active
  cases ok with
  | true => simp [onWriteDone, active, isOpen, State.written, State.leftQueue]
  | false =>
    cases callback : state.writeCallback <;>
      simp [onWriteDone, requeue, active, isOpen, State.written, State.leftQueue, callback]

def Accounted (owed : List Nat) (state : State) : Prop :=
  ∀ callback, state.given.count callback =
    (state.called.map Prod.fst).count callback + state.pending.count callback + owed.count callback

theorem Accounted.move (accounted : Accounted owed state) (given : after.given = state.given)
    (called : after.called = state.called)
    (moved : ∀ callback, after.pending.count callback + left.count callback =
      state.pending.count callback + owed.count callback) : Accounted left after := by
  intro callback
  have balanced := accounted callback
  have same := moved callback
  rw [given, called]
  omega

theorem Accounted.frame (accounted : Accounted owed state) (given : after.given = state.given)
    (called : after.called = state.called) (pending : after.pending = state.pending) :
    Accounted owed after :=
  accounted.move given called (fun callback => by rw [pending])

theorem Accounted.give (accounted : Accounted [] state) :
    Accounted callbacks { state with given := state.given ++ callbacks } := by
  intro callback
  have balanced := accounted callback
  simp only [State.pending, count_append, count_nil] at balanced ⊢
  omega

theorem Accounted.call {status : GrpcStatus} (accounted : Accounted (owed ++ left) state) :
    Accounted left
      { state with called := state.called ++ owed.map fun callback => (callback, status) } := by
  intro callback
  have balanced := accounted callback
  have fstEq : (owed.map fun callback => (callback, status)).map Prod.fst = owed := by
    simp [Function.comp_def]
  simp only [State.pending, map_append, fstEq, count_append] at balanced ⊢
  omega

@[simp] theorem filterMap_callback_singleton (callback : Option Nat) (op : StreamOp) :
    .filterMap WriteItem.callback [⟨callback, op⟩] = callback.toList := by
  cases callback <;> rfl

theorem Consistent.noWriteCallback (consistent : Consistent state)
    (inactive : ¬ state.writeActive = true) : state.writeCallback = none := by
  rw [← Option.not_isSome_iff_eq_none]
  exact fun waits => inactive (consistent.writeCalled waits)

theorem Accounted.enqueue {callback : Option Nat}
    (accounted : Accounted callback.toList state) (given : after.given = state.given)
    (called : after.called = state.called)
    (pending : after.pending =
      ({ state with writeQueue := state.writeQueue ++ [⟨callback, op⟩] } : State).pending) :
    Accounted [] after := by
  refine accounted.move given called (fun other => ?_)
  rw [pending]
  simp only [State.pending, filterMap_append, filterMap_callback_singleton, count_append,
    count_nil]
  omega

theorem Accounted.proceed {callback : Option Nat} (accounted : Accounted callback.toList state)
    (consistent : Consistent state)
    (inactive : ¬ state.writeActive = true) (given : after.given = state.given)
    (called : after.called = state.called)
    (pending : after.pending = ({ state with writeCallback := callback } : State).pending) :
    Accounted [] after := by
  refine accounted.move given called (fun other => ?_)
  rw [pending]
  simp only [State.pending, consistent.noWriteCallback inactive, count_append,
    Option.toList_none]
  omega

theorem Accounted.readCalled (accounted : Accounted [callback] state)
    (free : state.readCallback = none) (given : after.given = state.given)
    (called : after.called = state.called)
    (pending : after.pending = ({ state with readCallback := some callback } : State).pending) :
    Accounted [] after := by
  refine accounted.move given called (fun other => ?_)
  rw [pending]
  simp only [State.pending, free, count_append, Option.toList_some, Option.toList_none]
  omega

theorem Accounted.written (accounted : Accounted [] state) :
    Accounted (if ok then state.writeCallback.toList else [])
      (state.written (state.leftQueue ok)) := by
  cases ok with
  | true =>
    refine accounted.move rfl rfl (fun other => ?_)
    simp only [State.written, State.leftQueue, State.pending, if_true, count_append,
      Option.toList_none]
    omega
  | false =>
    refine accounted.move rfl rfl (fun other => ?_)
    cases callback : state.writeCallback with
    | none => simp [State.written, State.leftQueue, State.pending, callback]
    | some callback =>
      simp [State.written, State.leftQueue, State.pending, *, count_cons]

end YdbSdk.Grpc
