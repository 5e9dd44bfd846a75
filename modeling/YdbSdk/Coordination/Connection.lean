import YdbSdk.Coordination.Session

namespace YdbSdk.Coordination

open YdbSdk.Control YdbSdk.Data List

/-! # The connection and the promises of a coordination session -/

structure Link where
  settings : Settings
  phase : Phase
  localContext : Bool
  sessionPromise : Bool
  sessionState : SessionState
  connectionState : ConnectionState
  closedPromise : Bool
  connectContext : Option Nat
  connectTimeoutContext : Option Nat
  reconnectPromise : Option Nat
  sleepContext : Bool
  processor : Bool
  sessionId : Nat
  isStopping : Bool
  reconnects : List Nat
  reconnected : List Nat
  closed : List Status
  handed : Bool

@[grind] def State.link (state : State) : Link where
  settings := state.settings
  phase := state.phase
  localContext := state.localContext
  sessionPromise := state.sessionPromise
  sessionState := state.sessionState
  connectionState := state.connectionState
  closedPromise := state.closedPromise
  connectContext := state.connectContext
  connectTimeoutContext := state.connectTimeoutContext
  reconnectPromise := state.reconnectPromise
  sleepContext := state.sleepContext
  processor := state.processor
  sessionId := state.sessionId
  isStopping := state.isStopping
  reconnects := state.reconnects
  reconnected := state.reconnected
  closed := state.closed
  handed := state.handed

structure Linked (link : Link) : Prop where
  context : link.phase ≠ .created → link.phase ≠ .stopped → link.localContext = true
  attached : link.sessionState = .attached → link.phase = .reading ∧
    link.connectionState = .connected ∧ link.processor = true ∧ link.sessionId ≠ 0
  reading : link.phase = .reading → link.processor = true
  sleeping : link.sleepContext = decide (link.phase = .sleeping)
  timeout : link.connectTimeoutContext.isSome = true → link.connectContext.isSome = true
  handed : link.handed = true → link.phase ≠ .created
  stopped : link.phase = .stopped → link.isStopping = true ∧ link.closedPromise = true
  closed : link.closed.length = if link.phase = .stopped then 1 else 0

theorem linked_start : Linked (State.link { settings := settings }) := by
  constructor <;> simp [State.link]

/-- The session is attached, or its connection is about to end. -/
@[grind] def Link.Connected (link : Link) : Prop :=
  link.sessionState = .attached ∨ link.phase = .finishing ∨ ∃ status, link.phase = .failing status

/-- The session is attached and has sent its operations again. -/
@[grind] def Link.Active (link : Link) : Prop := link.sessionState = .attached ∧ link.isStopping = false

/-- The connection changes and the operations that were sent stay with it. -/
structure Relinked (before after : Link) : Prop where
  linked : Linked after
  active : after.Active → before.Active
  connected : before.Connected → after.Connected
  running : after.phase = .stopped → before.phase = .stopped

theorem Linked.relinked (linked : Linked link) : Relinked link link :=
  ⟨linked, id, id, id⟩

variable {state : State} {promise other : OpPromise} {status : Status} {value : Bool}
  {gone : List OpPromise}

theorem State.isWriteAllowed_link :
    state.isWriteAllowed = true ↔ state.link.processor = true ∧
      state.link.sessionState = .attached ∧ state.link.connectionState = .connected := by
  simp [State.isWriteAllowed, State.link, and_assoc]

/-! ## Promises -/

def OpPromise.number : OpPromise → Nat
  | .semaphore _ number => number
  | .request number => number

/-- Every promise that was made is set once or still in its operation. -/
structure Accounted (state : State) : Prop where
  given : state.given.Nodup
  bounded : ∀ promise ∈ state.given, promise.number < state.nextNumber
  settled : state.given.Perm (state.results.map Prod.fst ++ state.promises)

section

variable (accounted : Accounted state)
include accounted

theorem Accounted.distinct : state.promises.Nodup :=
  (nodup_append.mp (accounted.settled.nodup_iff.mp accounted.given)).2.1

theorem Accounted.mem_fulfil :
    other ∈ (state.fulfil promise status value).promises ↔ other ∈ state.promises ∧ other ≠ promise :=
  accounted.distinct.mem_erase_iff.trans and_comm

theorem Accounted.fulfil (held : promise ∈ state.promises) :
    Accounted (state.fulfil promise status value) := by
  refine ⟨accounted.given, accounted.bounded, accounted.settled.trans ?_⟩
  simp only [State.fulfil, map_append, append_assoc]
  exact (perm_cons_erase held).append_left _

theorem Accounted.unused
    (numbered : promise.number = state.nextNumber) : promise ∉ state.given := by
  intro member
  have less := accounted.bounded promise member
  rw [numbered] at less
  exact Nat.lt_irrefl _ less

theorem Accounted.fresh (numbered : promise.number = state.nextNumber) : promise ∉ state.promises :=
  fun member => accounted.unused numbered (accounted.settled.mem_iff.mpr (mem_append_right _ member))

theorem Accounted.make {after : State} (numbered : promise.number = state.nextNumber)
    (given : after.given = state.given ++ [promise]) (nextNumber : after.nextNumber = state.nextNumber + 1)
    (settled : (state.results.map Prod.fst ++ state.promises ++ [promise]).Perm
      (after.results.map Prod.fst ++ after.promises)) : Accounted after := by
  constructor
  · rw [given, nodup_append]
    refine ⟨accounted.given, by simp, fun other member single isSingle same => ?_⟩
    rw [mem_singleton.mp isSingle] at same
    exact accounted.unused numbered (same ▸ member)
  · intro other member
    rw [given] at member
    rw [nextNumber]
    rcases mem_append.mp member with old | new
    · exact Nat.lt_succ_of_lt (accounted.bounded other old)
    · rw [mem_singleton.mp new, numbered]
      exact Nat.lt_succ_self _
  · rw [given]
    exact (accounted.settled.append_right _).trans settled

def State.withPromise (state : State) (promise : OpPromise) : State :=
  { state with
    nextNumber := state.nextNumber + 1
    promises := state.promises ++ [promise]
    given := state.given ++ [promise] }

omit accounted in
@[simp] theorem makePromise_wp : (makePromise promiseOf).wp contract state ↔
      contract.returns state.nextNumber (state.withPromise (promiseOf state.nextNumber)) :=
  .rfl

theorem Accounted.withPromise
    (numbered : promise.number = state.nextNumber) : Accounted (state.withPromise promise) := by
  apply accounted.make numbered rfl rfl
  rw [State.withPromise, append_assoc]

theorem Accounted.closed {promiseOf : Nat → OpPromise}
    (numbered : ∀ number, (promiseOf number).number = number) :
    (makeClosedResult promiseOf).wp (.keeping Accounted (fun _ => False)) state := by
  apply accounted.make (numbered state.nextNumber) rfl rfl
  simp only [map_append, append_assoc]
  exact .append_left _ perm_append_comm

omit accounted in
theorem fulfilIfAny_wp
    (held : promise ∈ state.promises) : (fulfilIfAny promise status value).wp contract state ↔
      contract.returns () (state.fulfil promise status value) := by
  simp [fulfilIfAny, held]

omit accounted in
theorem fulfil_wp
    (held : promise ∈ state.promises) : (fulfil promise status value).wp contract state ↔
      contract.returns () (state.fulfil promise status value) := by
  simp [Coordination.fulfil, held]

def State.fulfilAll (state : State) (gone : List OpPromise) (status : Status) : State :=
  { state with
    promises := state.promises.diff gone
    results := state.results ++ gone.map fun promise => (promise, status, false) }

omit accounted in
theorem State.fulfilAll_cons :
    state.fulfilAll (promise :: gone) status =
      (state.fulfil promise status false).fulfilAll gone status := by
  simp [State.fulfilAll, State.fulfil]

theorem Accounted.mem_fulfilAll :
    promise ∈ (state.fulfilAll gone status).promises ↔ promise ∈ state.promises ∧ promise ∉ gone :=
  accounted.distinct.mem_sdiff_iff

theorem Accounted.fulfilAll (distinct : gone.Nodup)
    (held : ∀ promise ∈ gone, promise ∈ state.promises) : Accounted (state.fulfilAll gone status) := by
  induction gone generalizing state with
  | nil => simpa [State.fulfilAll] using accounted
  | cons promise rest ih =>
    obtain ⟨apart, distinctRest⟩ := nodup_cons.mp distinct
    rw [State.fulfilAll_cons]
    apply ih (accounted.fulfil (held promise (by simp))) distinctRest
    intro other member
    exact accounted.mem_fulfil.mpr ⟨held other (by simp [member]), fun same => apart (same ▸ member)⟩

/-- Promises were set, and nothing else has changed. -/
structure Settles (gone : List OpPromise) (before after : State) : Prop where
  accounted : Accounted after
  link : after.link = before.link
  tables : (after.semaphores, after.semaphoreByReqId, after.pendingRequests, after.sentRequests,
      after.nextReqId, after.nextNumber, after.noticed) =
    (before.semaphores, before.semaphoreByReqId, before.pendingRequests, before.sentRequests,
      before.nextReqId, before.nextNumber, before.noticed)
  promises : ∀ promise, promise ∈ after.promises ↔ promise ∈ before.promises ∧ promise ∉ gone

theorem fulfilIfAny_settles :
    (fulfilIfAny promise status value).wp (.keeping (Settles [promise] state) (fun _ => False)) state := by
  simp only [fulfilIfAny, Code.wp_rules]
  refine ⟨fun held => ⟨accounted.fulfil (of_decide_eq_true held), rfl, rfl, fun other => ?_⟩,
    fun absent => ⟨accounted, rfl, rfl, fun other => (and_iff_left_of_imp fun held => ?_).symm⟩⟩
  · simpa using accounted.mem_fulfil
  · intro same
    exact of_decide_eq_false absent (mem_singleton.mp same ▸ held)

theorem fulfils_settle (distinct : gone.Nodup) (held : ∀ promise ∈ gone, promise ∈ state.promises) :
    (Code.forEach gone fun promise => fulfil promise status false).wp
      (.keeping (Settles gone state) (fun _ => False)) state := by
  suffices exact : (Code.forEach gone fun promise => fulfil promise status false).wp
      (.keeping (· = state.fulfilAll gone status) (fun _ => False)) state by
    refine Code.wp_mono exact (fun _ after same => ?_) nofun
    exact same ▸ ⟨accounted.fulfilAll distinct held, rfl, rfl, fun _ => accounted.mem_fulfilAll⟩
  induction gone generalizing state with
  | nil => simp [Code.forEach, State.fulfilAll]
  | cons promise rest ih =>
    obtain ⟨apart, distinctRest⟩ := nodup_cons.mp distinct
    rw [State.fulfilAll_cons, Code.forEach, Code.wp_bind, fulfil_wp (held promise (by simp))]
    apply ih (accounted.fulfil (held promise (by simp))) distinctRest
    intro other member
    exact accounted.mem_fulfil.mpr ⟨held other (by simp [member]), fun same => apart (same ▸ member)⟩

end

theorem setCurrentFailureIfNone_wp (status : Status) :
    (setCurrentFailureIfNone status).wp contract state ↔
      contract.returns () { state with
        currentFailure := some (state.currentFailure.getD status) } := by
  cases failure : state.currentFailure with
  | none => simp [setCurrentFailureIfNone, setCurrentFailure, failure]
  | some status =>
    have same : { state with currentFailure := some status } = state := by rw [← failure]
    simp [setCurrentFailureIfNone, failure, same]

end YdbSdk.Coordination
