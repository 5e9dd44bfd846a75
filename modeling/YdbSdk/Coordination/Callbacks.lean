import YdbSdk.Coordination.Completion

namespace YdbSdk.Coordination

open YdbSdk.Control YdbSdk.Data Code

/-! # The callbacks and the timers of a coordination session

The chain of callbacks calls `OnStateChanged` and `OnStopped` itself, after the section that
changed the state.  A timer is recognised by the context that is stored when it is armed.
-/

inductive Notice where
  | changed (state : SessionState)
  | stopped

/-- `SessionId != 0 && SessionState != ESessionState::EXPIRED`. -/
@[grind] def State.expires (state : State) : Bool := state.sessionId ≠ 0 && state.sessionState ≠ .expired

/-- The state that an event reports, by the state it occurs in. -/
@[grind] def State.reports (state : State) : Event → Option SessionState
  | .read (.failure status) =>
    if status.isFatal && state.expires then some .expired
    else if state.sessionState = .attached then some .detached
    else none
  | .read (.sessionStarted _) => some .attached
  | .read .sessionStopped => if state.expires then some .expired else none
  | .readFailed _ => if state.sessionState = .attached then some .detached else none
  | .processorStatus _ deadlinePassed =>
    let timedOut := state.sessionTimeout || !(state.isStopping || state.sessionPromise)
    if state.stops deadlinePassed && timedOut && state.expires then some .expired else none
  | _ => none

@[grind] def State.ends (state : State) : Event → Bool
  | .processorStatus _ deadlinePassed => state.stops deadlinePassed
  | _ => false

/-- The calls of `OnStateChanged` and `OnStopped` that an event makes. -/
def State.notices (state : State) (event : Event) : List Notice :=
  (state.reports event).toList.map .changed ++ if state.ends event then [.stopped] else []

/-- Attached and detached in turn; expired after one of them, and nothing after expired. -/
inductive Alternates : List SessionState → SessionState → Prop where
  | start : Alternates [] .detached
  | attach {changes} (earlier : Alternates changes .detached) :
      Alternates (changes ++ [.attached]) .attached
  | detach {changes} (earlier : Alternates changes .attached) :
      Alternates (changes ++ [.detached]) .detached
  | expire {changes last} (earlier : Alternates changes last) (reported : changes ≠ [])
      (valid : last ≠ .expired) : Alternates (changes ++ [.expired]) .expired

variable {state before after : State} {name : String}

/-! ## What the operations leave alone -/

/-- The chain of callbacks and the timers. -/
def State.front (state : State) :=
  (state.phase, state.sessionState, state.sessionId, state.sessionStartTimeoutContext,
    state.sessionSelfPingContext, state.sessionSelfPingReqId)

/-- The number was given out, and no request waits for an answer under it. -/
@[grind] def State.Answered (state : State) (reqId : Nat) : Prop :=
  reqId < state.nextReqId ∧ state.sentRequests.find reqId = none

structure Still (before after : State) : Prop where
  front : after.front = before.front
  stopping : before.isStopping = true → after.isStopping = true
  contexts : before.nextContext ≤ after.nextContext
  requests : before.nextReqId ≤ after.nextReqId
  answered : ∀ reqId, before.Answered reqId → after.Answered reqId

theorem Still.next (front : after.front = before.front)
    (stopping : before.isStopping = true → after.isStopping = true)
    (contexts : before.nextContext ≤ after.nextContext) (requests : before.nextReqId ≤ after.nextReqId)
    (sent : after.sentRequests = before.sentRequests) : Still before after :=
  ⟨front, stopping, contexts, requests, fun _ answered =>
    ⟨Nat.lt_of_lt_of_le answered.1 requests, sent ▸ answered.2⟩⟩

theorem Still.same (view : (after.front, after.isStopping, after.nextContext, after.nextReqId,
      after.sentRequests) =
    (before.front, before.isStopping, before.nextContext, before.nextReqId, before.sentRequests)) :
    Still before after := by
  simp only [Prod.mk.injEq] at view
  obtain ⟨front, stopping, contexts, requests, sent⟩ := view
  exact .next front (stopping ▸ id) (Nat.le_of_eq contexts.symm) (Nat.le_of_eq requests.symm) sent

def still : Code.Motion State where
  moves := Still
  refl _ := .same rfl
  trans first second :=
    ⟨second.front.trans first.front, second.stopping ∘ first.stopping,
      Nat.le_trans first.contexts second.contexts, Nat.le_trans first.requests second.requests,
      fun reqId => second.answered reqId ∘ first.answered reqId⟩

theorem Still.erase (reqId : Nat) :
    Still state { state with sentRequests := state.sentRequests.erase reqId } :=
  ⟨rfl, id, Nat.le_refl _, Nat.le_refl _, fun _ answered => ⟨answered.1, by simp [answered.2]⟩⟩

theorem Still.send (op : SimpleOp) :
    Still state { state with
      nextReqId := state.nextReqId + 1
      sentRequests := state.sentRequests.insert state.nextReqId op } :=
  ⟨rfl, id, Nat.le_refl _, Nat.le_succ _, fun _ answered =>
    ⟨Nat.lt_succ_of_lt answered.1, by simp [answered.2, Nat.ne_of_lt answered.1]⟩⟩

theorem setSemaphore_still : (setSemaphore name sem).Follows still :=
  .update fun _ => .same rfl

theorem fulfilIfAny_still :
    (fulfilIfAny promise status value).Follows still :=
  .bind (.read _) fun _ => .when fun _ => .update fun _ => .same rfl

theorem doSemaphoreSendOp_still : (doSemaphoreSendOp name op).Follows still :=
  .bind .get fun _ => .bind (.require _ _) fun _ => .bind (.require _ _) fun _ =>
    .bind (.require _ _) fun _ => .bind (.update fun _ => .same rfl) fun _ => setSemaphore_still

theorem doSemaphoreProcessQueue_still : (doSemaphoreProcessQueue name).Follows still := by
  refine .bind .get fun state => ?_
  dsimp only
  cases (state.semaphore name).opQueue with
  | nil => exact .pure ()
  | cons op rest =>
    exact .when fun _ => .bind setSemaphore_still fun _ =>
      .bind (.update fun _ => .next rfl id (Nat.le_refl _) (Nat.le_succ _) rfl) fun _ =>
        doSemaphoreSendOp_still

theorem supersede_still : (supersede name op).Follows still := by
  refine .bind .get fun state => ?_
  dsimp only
  cases (state.semaphore name).lastAckedOp with
  | none => exact .pure ()
  | some acked => exact .when fun _ => fulfilIfAny_still

theorem settleLastSent_still :
    (settleLastSent name op isError).Follows still := by
  refine .bind .get fun _ => .bind setSemaphore_still fun _ => .bind (.when fun _ => ?_) fun _ =>
    .bind .get fun state => ?_
  · exact .bind supersede_still fun _ => .bind .get fun _ => setSemaphore_still
  · dsimp only
    split
    · exact .bind .get fun _ => .when fun _ => doSemaphoreSendOp_still
    · exact doSemaphoreProcessQueue_still

theorem settleOp_still :
    (settleOp name op isError).Follows still :=
  .bind .get fun _ => .ite _ (fun _ => settleLastSent_still) fun _ =>
    .when fun _ => setSemaphore_still

theorem reportOp_still :
    (reportOp name op status value).Follows still :=
  .bind .get fun _ => .bind setSemaphore_still fun _ => .bind fulfilIfAny_still fun _ =>
    .bind .get fun _ => .when fun _ => .update fun _ => .same rfl

theorem doSemaphoreProcessResult_still : (doSemaphoreProcessResult reqId opType status value).Follows still := by
  refine .bind (.read _) fun byReqId => ?_
  cases byReqId.find reqId with
  | none => exact .pure ()
  | some name =>
    refine .bind .get fun state => ?_
    dsimp only
    cases (state.semaphore name).waiting reqId with
    | none => exact .stop _
    | some op =>
      exact .bind setSemaphore_still fun _ => .bind (.update fun _ => .same rfl) fun _ =>
        .when fun _ => .bind settleOp_still fun _ => reportOp_still

theorem acquireSemaphorePending_still :
    (acquireSemaphorePending reqId).Follows still := by
  refine .bind (.update fun _ => .same rfl) fun _ => .bind (.read _) fun byReqId => ?_
  cases byReqId.find reqId with
  | none => exact .pure ()
  | some name =>
    refine .bind .get fun state => ?_
    cases (state.semaphore name).lastSentOp with
    | none => exact .stop _
    | some op =>
      exact .bind (.require _ _) fun _ => .bind supersede_still fun _ => .bind .get fun _ =>
        .bind .get fun _ => .bind (.when fun _ => .update fun _ => .same rfl) fun _ =>
          .bind .get fun _ => .bind setSemaphore_still fun _ => doSemaphoreProcessQueue_still

theorem doAcquireRelease_still : (doAcquireRelease name opType).Follows still :=
  .bind .get fun _ => .ite _ (fun _ => .update fun _ => .same rfl) fun _ =>
    .bind (.bind (.read _) fun _ => .bind (.update fun _ => .same rfl) fun _ => .pure _) fun _ =>
      .bind .get fun _ => .bind setSemaphore_still fun _ => doSemaphoreProcessQueue_still

theorem doSendSimpleOp_still : (doSendSimpleOp op).Follows still :=
  .bind .get fun _ => .bind (.require _ _) fun _ => .bind (.update fun _ => .send op) fun _ => .pure _

theorem doSimpleOp_still : (doSimpleOp kind).Follows still :=
  .bind .get fun _ => .ite _ (fun _ => .update fun _ => .same rfl) fun _ =>
    .bind (.bind (.read _) fun _ => .bind (.update fun _ => .same rfl) fun _ => .pure _) fun _ =>
      .ite _ (fun _ => .bind doSendSimpleOp_still fun _ => .pure _) fun _ => .update fun _ => .same rfl

theorem simpleResult_still : (simpleResult reqId wanted watchAdded status).Follows still := by
  refine .bind .get fun state => ?_
  cases state.findSentRequest reqId wanted with
  | none => exact .pure ()
  | some op => exact .bind (.when fun _ => .update fun _ => .erase reqId) fun _ => fulfilIfAny_still

theorem notify_still :
    (notify op dataChanged ownersChanged).Follows still := by
  unfold notify
  split
  · exact .update fun _ => .same rfl
  · exact .pure ()

theorem describeSemaphoreChanged_still :
    (describeSemaphoreChanged reqId dataChanged ownersChanged).Follows still := by
  refine .bind .get fun state => ?_
  cases state.findSentRequest reqId SimpleKind.isDescribe with
  | none => exact .pure ()
  | some op => exact .bind (.update fun _ => .erase reqId) fun _ => notify_still

theorem restoreSemaphore_still : (restoreSemaphore name).Follows still := by
  refine .bind .get fun state => ?_
  dsimp only
  split
  · exact .bind doSemaphoreSendOp_still fun _ => .bind .get fun _ => setSemaphore_still
  · exact .bind doSemaphoreSendOp_still fun _ => .bind .get fun _ => setSemaphore_still
  · exact .bind setSemaphore_still fun _ => doSemaphoreProcessQueue_still

theorem failOperations_still :
    (failOperations promises semaphoreStatus requests status).Follows still := by
  have set : ∀ promise status, (fulfil promise status false).Follows still := fun _ _ =>
    .bind (.read _) fun _ => .bind (.require _ _) fun _ => .update fun _ => .same rfl
  exact .bind (.forEach fun _ _ => set _ _) fun _ => .forEach fun _ _ =>
    .bind (.read _) fun _ => .ite _ (fun _ => notify_still) fun _ => set _ _

theorem resumeOperations_still : resumeOperations.Follows still :=
  .bind (.read _) fun _ => .bind (.forEach fun _ _ => restoreSemaphore_still) fun _ =>
    .bind (.read _) fun _ => .bind (.forEach fun _ _ => .bind doSendSimpleOp_still fun _ => .pure _)
      fun _ => .update fun _ => .same rfl

theorem setCurrentFailureIfNone_still :
    (setCurrentFailureIfNone status).Follows still :=
  .bind (.read _) fun _ => .when fun _ => .bind (.read _) fun _ => .bind (.require _ _) fun _ =>
    .update fun _ => .same rfl

theorem sendCloseRequest_still : sendCloseRequest.Follows still :=
  .bind (.read _) fun _ => .bind (.require _ _) fun _ => .bind (.read _) fun _ => .require _ _

theorem stop_still : stop.Follows still :=
  .bind (.update fun _ => .next rfl (fun _ => rfl) (Nat.le_refl _) (Nat.le_refl _) rfl) fun _ =>
    setCurrentFailureIfNone_still

theorem doClose_still : (doClose isAbort).Follows still :=
  .bind .get fun _ => .bind
    (.when fun _ => .bind (.update fun _ => .same rfl) fun _ => .when fun _ => sendCloseRequest_still)
    fun _ => .when fun _ =>
      .bind (.update fun _ => .next rfl (fun _ => rfl) (Nat.le_refl _) (Nat.le_refl _) rfl) fun _ =>
        setCurrentFailureIfNone_still

theorem doReconnect_still : doReconnect.Follows still :=
  .bind .get fun _ => .ite _ (fun _ => .update fun _ => .same rfl) fun _ =>
    .when fun _ => .update fun _ => .same rfl

theorem onConnectTimeout_still : (onConnectTimeout context).Follows still :=
  .bind .get fun _ => .when fun _ => .bind (.update fun _ => .same rfl) fun _ =>
    .bind (.require _ _) fun _ => .bind (.update fun _ => .same rfl) fun _ =>
      setCurrentFailureIfNone_still

/-! ## What a step does to the chain and the timers -/

@[grind] def Phase.isLast : Phase → Bool
  | .finishing | .failing _ | .stopped => true
  | _ => false

/-- No failure and no end of the session is read while the timer of its start is armed. -/
@[grind] def Released (state : State) : Event → Prop
  | .read (.failure _) | .read .sessionStopped => state.sessionStartTimeoutContext = none
  | _ => True

structure Stepped (event : Event) (before after : State) : Prop where
  reported : after.sessionState = (before.reports event).getD before.sessionState
  sessionId : before.reports event ≠ some .attached → after.sessionId = before.sessionId
  stopped : after.phase = .stopped ↔ before.phase = .stopped ∨ before.ends event = true
  last : (before.sessionState = .expired → before.isStopping = true ∧ before.phase.isLast = true) →
    after.sessionState = .expired → after.isStopping = true ∧ after.phase.isLast = true
  contexts : before.nextContext ≤ after.nextContext
  start : ∀ context, after.sessionStartTimeoutContext = some context →
    before.sessionStartTimeoutContext = some context ∨
      before.nextContext ≤ context ∧ context < after.nextContext
  reading : Released before event →
    (before.sessionStartTimeoutContext ≠ none → before.phase = .reading) →
    after.sessionStartTimeoutContext ≠ none → after.phase = .reading
  ping : ∀ context, after.sessionSelfPingContext = some context →
    before.sessionSelfPingContext = some context ∨
      before.nextContext ≤ context ∧ context < after.nextContext
  pinged : before.sessionSelfPingReqId < before.nextReqId →
    after.sessionSelfPingReqId < after.nextReqId
  answered : after.sessionSelfPingReqId = before.sessionSelfPingReqId ∧
      (∀ reqId, before.Answered reqId → after.Answered reqId) ∨
    ∃ context busy, event = .selfPingTimer context busy ∧ before.sessionSelfPingContext = some context
  cleared : ∀ status deadlinePassed, event = .processorStatus status deadlinePassed →
    before.sessionSelfPingReqId < before.nextReqId → after.Answered after.sessionSelfPingReqId

theorem Stepped.still {event : Event} {middle : State} (stepped : Stepped event before middle)
    (still : Still middle after) : Stepped event before after := by
  obtain ⟨front, stopping, contexts, requests, answered⟩ := still
  simp only [State.front, Prod.mk.injEq] at front
  obtain ⟨phase, sessionState, sessionId, start, ping, reqId⟩ := front
  cases stepped
  constructor <;> grind

theorem stepped_of_still {event : Event} {code : Session Unit} (follows : code.Follows still)
    (silent : before.reports event = none) (goesOn : before.ends event = false)
    (other : ∀ status deadlinePassed, event ≠ .processorStatus status deadlinePassed) :
    code.wp (.keeping (Stepped event before)) before := by
  have stands : Stepped event before before := by constructor <;> grind
  exact wp_mono (follows before) (fun _ _ => stands.still) nofun

theorem sessionAttached_still :
    sessionAttached.wp (.keeping (Still { before with
      sessionState := .attached
      connectionState := .connected
      sessionExpireDeadline := false })) before := by
  have tail : ∀ closing running, (do
      .when closing sendCloseRequest
      .when running resumeOperations : Session Unit).Follows still := fun _ _ =>
    .bind (.when fun _ => sendCloseRequest_still) fun _ => .when fun _ => resumeOperations_still
  simp only [sessionAttached, wp_bind, wp_require, wp_update]
  exact ⟨fun _ => ⟨fun _ => wp_bind.mp (tail _ _ _), fun _ => trivial⟩, fun _ => trivial⟩

theorem sessionStarted_stepped {sessionId : Nat} (reading : before.phase = .reading) :
    (sessionStarted sessionId).wp (.keeping (Stepped (.read (.sessionStarted sessionId)) before))
      before := by
  simp only [sessionStarted, wp_bind, wp_require, wp_update]
  refine ⟨fun positive => wp_mono sessionAttached_still (fun _ middle moved => ?_) (by simp),
    fun _ => trivial⟩
  have stepped : Stepped (.read (.sessionStarted sessionId)) before middle :=
    .still (by constructor <;> grind) moved
  simp only [startSelfPing, newContext, wp_rules]
  refine ⟨fun armed => ⟨fun _ => ?_, fun _ => trivial⟩, fun _ => stepped⟩
  cases stepped
  constructor <;> grind

theorem onProcessorStatus_stepped {status : Status} {deadlinePassed : Bool}
    (failing : before.phase = .failing status) :
    (onProcessorStatus status deadlinePassed).wp
      (.keeping (Stepped (.processorStatus status deadlinePassed) before)) before := by
  simp only [onProcessorStatus, stopSession, disconnect, wp_rules]
  refine ⟨fun _ => ⟨fun _ => ⟨fun stops => ?_, fun goesOn => ?_⟩, fun _ => trivial⟩, fun _ => trivial⟩
  · refine wp_mono (failOperations_still _) (fun _ after moved => ?_) (by simp)
    refine Stepped.still (Stepped.still ?_ moved) (.same rfl)
    constructor <;> grind [State.stops, Assoc.find_nil]
  · refine wp_mono (failOperations_still _) (fun _ after moved => Stepped.still ?_ moved) (by simp)
    constructor <;> grind [State.stops, Assoc.find_nil]

theorem onRead_stepped {response : Response} (reading : before.phase = .reading) :
    (onRead response).wp (.keeping (Stepped (.read response) before)) before := by
  simp only [onRead, wp_rules]
  refine ⟨fun _ => ?_, fun _ => trivial⟩
  cases response with
  | failure status =>
    simp only [processResponse, failure, setCurrentFailureIfNone_wp, wp_rules]
    refine ⟨fun _ => ?_, fun _ => ?_⟩
    all_goals constructor <;> grind [State.expire, State.detach]
  | sessionStopped =>
    simp only [processResponse, sessionStopped, setCurrentFailureIfNone_wp, wp_rules]
    refine ⟨fun _ => ?_, fun _ => trivial⟩
    constructor <;> grind [State.expire]
  | sessionStarted sessionId => exact sessionStarted_stepped reading
  | acquireSemaphorePending reqId =>
    exact stepped_of_still acquireSemaphorePending_still rfl rfl nofun
  | acquireSemaphoreResult reqId status acquired =>
    exact stepped_of_still doSemaphoreProcessResult_still rfl rfl nofun
  | releaseSemaphoreResult reqId status released =>
    exact stepped_of_still doSemaphoreProcessResult_still rfl rfl nofun
  | describeSemaphoreChanged reqId dataChanged ownersChanged =>
    exact stepped_of_still describeSemaphoreChanged_still rfl rfl nofun
  | _ => exact stepped_of_still simpleResult_still rfl rfl nofun

theorem react_stepped {event : Event} (promised : Promised before event) :
    (react event).wp (.keeping (Stepped event before)) before := by
  cases event with
  | read response => exact onRead_stepped promised.1
  | stop => exact stepped_of_still stop_still rfl rfl (by simp)
  | close isAbort => exact stepped_of_still doClose_still rfl rfl (by simp)
  | reconnect => exact stepped_of_still doReconnect_still rfl rfl (by simp)
  | acquireSemaphore name => exact stepped_of_still doAcquireRelease_still rfl rfl (by simp)
  | releaseSemaphore name => exact stepped_of_still doAcquireRelease_still rfl rfl (by simp)
  | connectTimeout context => exact stepped_of_still onConnectTimeout_still rfl rfl (by simp)
  | start context =>
    simp only [react, start, wp_rules]
    refine ⟨fun _ => ?_, fun _ => ?_⟩
    all_goals constructor <;> grind [Promised]
  | connectRequest =>
    simp only [react, doConnectRequest, newContext, wp_rules]
    refine ⟨fun _ => ?_, fun _ => ?_⟩
    all_goals constructor <;> grind [Promised]
  | connect status =>
    simp only [react, onConnect, wp_rules]
    refine ⟨fun _ => ?_, fun _ => ⟨fun _ => ?_, fun _ => ?_⟩⟩
    all_goals constructor <;> grind [Promised]
  | connected =>
    simp only [react, onConnected, newContext, wp_rules]
    refine ⟨fun _ => ⟨fun _ => ?_, fun _ => trivial⟩, fun _ => ?_⟩
    all_goals constructor <;> grind [Promised]
  | sessionStartTimeout context =>
    simp only [react, onSessionStartTimeout, setCurrentFailureIfNone_wp, wp_rules]
    refine ⟨fun _ => ?_, fun _ => ?_⟩
    all_goals constructor <;> grind
  | selfPingTimer context busy =>
    simp only [react, onSelfPingTimer, makePromise, doSendSimpleOp, setCurrentFailureIfNone_wp,
      wp_rules]
    refine ⟨fun _ => ⟨fun _ => ?_, fun _ => ⟨fun _ => ?_, fun _ => ⟨fun _ => ⟨fun _ => ?_,
      fun _ => trivial⟩, fun _ => ?_⟩⟩⟩, fun _ => ?_⟩
    all_goals constructor <;> grind
  | readFailed status =>
    simp only [react, onReadFailed, wp_rules]
    constructor <;> grind [Promised, State.detach]
  | finish status =>
    simp only [react, onFinish, wp_rules]
    constructor <;> grind [Promised]
  | reschedule =>
    simp only [react, reschedule, wp_rules]
    refine ⟨fun _ => ?_, fun _ => trivial⟩
    constructor <;> grind [Promised]
  | sleepFinished =>
    simp only [react, onSleepFinished, wp_rules]
    refine ⟨fun _ => ⟨fun _ => ?_, fun _ => ⟨fun _ => ?_, fun _ => trivial⟩⟩, fun _ => trivial⟩
    all_goals constructor <;> grind [Promised]
  | processorStatus status deadlinePassed => exact onProcessorStatus_stepped promised
  | _ => exact stepped_of_still doSimpleOp_still rfl rfl (by simp)

/-! ## Notices -/

inductive Notified settings : State → List Notice → Prop where
  | start : Notified settings { settings := settings } []
  | step {before after : State} {told : List Notice} (event : Event)
      (earlier : Notified settings before told) (promised : Promised before event)
      (taken : (react event).step before = .ok after) :
      Notified settings after (told ++ before.notices event)

theorem notified_of_reachable
    (reached : Reachable react Promised { settings := settings } state) :
    ∃ told, Notified settings state told := by
  induction reached with
  | start => exact ⟨[], .start⟩
  | step event _ promised taken ih =>
    obtain ⟨told, earlier⟩ := ih
    exact ⟨_, .step event earlier promised taken⟩

structure Heard (state : State) (told : List Notice) : Prop where
  told : ∃ changes, told = changes.map .changed ++ (if state.phase = .stopped then [.stopped] else []) ∧
    Alternates changes state.sessionState ∧ (state.sessionId ≠ 0 → changes ≠ [])
  last : state.sessionState = .expired → state.isStopping = true ∧ state.phase.isLast = true

theorem Heard.running {event : Event} (promised : Promised before event)
    (speaks : before.reports event ≠ none ∨ before.ends event = true) : before.phase ≠ .stopped := by
  cases event <;> grind [Promised]

theorem State.reports_cases
    (reports : before.reports event = some change) :
    (change = .attached ∧ ∃ sessionId, event = .read (.sessionStarted sessionId)) ∨
      (change = .detached ∧ before.sessionState = .attached) ∨
      (change = .expired ∧ before.expires = true) := by
  unfold State.reports at reports
  split at reports <;> grind

/-- A change that is reported follows the state before it. -/
theorem Heard.alternates {event : Event} {told : List Notice} {changes : List SessionState}
    {change : SessionState} (heard : Heard before told) (linked : Linked before.link)
    (promised : Promised before event) (reports : before.reports event = some change)
    (earlier : Alternates changes before.sessionState)
    (reported : before.sessionId ≠ 0 → changes ≠ []) : Alternates (changes ++ [change]) change := by
  rcases State.reports_cases reports with ⟨rfl, _, rfl⟩ | ⟨rfl, attached⟩ | ⟨rfl, expires⟩
  · obtain ⟨reading, _, attaching⟩ := promised
    have notAttached : before.sessionState ≠ .attached := fun attached =>
      absurd (attaching.symm.trans (linked.attached attached).2.1) nofun
    have notExpired : before.sessionState ≠ .expired := fun expired => by
      have last := (heard.last expired).2
      rw [reading] at last
      contradiction
    cases now : before.sessionState with
    | attached => contradiction
    | detached => exact .attach (now ▸ earlier)
    | expired => contradiction
  · exact .detach (attached ▸ earlier)
  · simp only [State.expires, Bool.and_eq_true, decide_eq_true_eq] at expires
    exact .expire earlier (reported expires.1) expires.2

theorem Heard.step {told : List Notice} (heard : Heard before told)
    (linked : Linked before.link) (promised : Promised before event)
    (stepped : Stepped event before after) : Heard after (told ++ before.notices event) := by
  obtain ⟨changes, same, earlier, reported⟩ := heard.told
  refine ⟨?_, stepped.last heard.last⟩
  have stopped := stepped.stopped
  have running := Heard.running promised
  have now := stepped.reported
  cases reports : before.reports event with
  | none =>
    refine ⟨changes, ?_, ?_, ?_⟩
    · simp only [State.notices, reports]
      grind
    · rw [now, reports]
      exact earlier
    · rw [stepped.sessionId (by simp [reports])]
      exact reported
  | some change =>
    refine ⟨changes ++ [change], ?_, ?_, by simp⟩
    · simp only [State.notices]
      grind
    · rw [now, reports]
      exact heard.alternates linked promised reports earlier reported

/-- In every run the states reported are attached and detached in turn, and expired at last;
the session is in the state reported last, the notice that it stopped is the last one, and no
assertion fails. -/
theorem notices_alternate {settings : Settings} {told : List Notice}
    (run : Notified settings state told) :
    (∃ changes, Alternates changes state.sessionState ∧
      told = changes.map .changed ++ if state.phase = .stopped then [.stopped] else []) ∧
      ∀ event, Promised state event → ∃ after, (react event).step state = .ok after := by
  have kept : Sound state ∧ Heard state told := by
    induction run with
    | start => exact ⟨sound_start, ⟨[], rfl, .start, fun started => absurd rfl started⟩, nofun⟩
    | step event _ promised taken ih =>
      obtain ⟨sound, heard⟩ := ih
      exact ⟨wp_step (react_sound sound promised) taken,
        heard.step sound.linked promised (wp_step (react_stepped promised) taken)⟩
  obtain ⟨changes, same, alternates, _⟩ := kept.2.told
  exact ⟨⟨changes, alternates, same⟩, fun event promised => exists_step (react_sound kept.1 promised)⟩

theorem notices_alternate_after_reconnect :
    ∃ (state : State) (told : List Notice), Notified {} state told ∧ state.phase = .stopped ∧
      ∃ changes, Alternates changes .expired ∧ told = changes.map .changed ++ [.stopped] := by
  obtain ⟨state, reached, stopped, expired⟩ : ∃ state, Reachable react Promised { settings := {} } state ∧
      state.phase = .stopped ∧ state.sessionState = .expired :=
    exists_reachable replayedRun (by decide +kernel)
  obtain ⟨told, notified⟩ := notified_of_reachable reached
  obtain ⟨⟨changes, alternates, same⟩, _⟩ := notices_alternate notified
  rw [if_pos stopped] at same
  exact ⟨state, told, notified, stopped, changes, expired ▸ alternates, same⟩

/-! ## Timers -/

instance (state : State) (event : Event) : Decidable (Released state event) := by
  unfold Released
  split <;> infer_instance

def Kept (state : State) (event : Event) : Prop := Promised state event ∧ Released state event

instance (state : State) (event : Event) : Decidable (Kept state event) :=
  inferInstanceAs (Decidable (_ ∧ _))

/-- The timers and the ping were given their numbers, and the timer of the start is armed only
while a connection is read. -/
structure Timed (state : State) : Prop where
  start : ∀ context, state.sessionStartTimeoutContext = some context → context < state.nextContext
  reading : state.sessionStartTimeoutContext ≠ none → state.phase = .reading
  ping : ∀ context, state.sessionSelfPingContext = some context → context < state.nextContext
  pinged : state.sessionSelfPingReqId < state.nextReqId

theorem react_timed {event : Event} (timed : Timed before) (kept : Kept before event) :
    (react event).wp (.keeping Timed) before := by
  refine wp_mono (react_stepped kept.1) (fun _ after stepped => ?_) nofun
  have contexts := stepped.contexts
  refine ⟨fun context armed => ?_, stepped.reading kept.2 timed.reading, fun context armed => ?_,
    stepped.pinged timed.pinged⟩
  · rcases stepped.start context armed with old | new
    · exact Nat.lt_of_lt_of_le (timed.start context old) contexts
    · exact new.2
  · rcases stepped.ping context armed with old | new
    · exact Nat.lt_of_lt_of_le (timed.ping context old) contexts
    · exact new.2

def Event.fires (context : Nat) : Event → Bool
  | .sessionStartTimeout other | .selfPingTimer other _ => other = context
  | _ => false

def Unfired (context : Nat) (state : State) (event : Event) : Prop :=
  Kept state event ∧ event.fires context = false

/-- The timer of a start is not armed, and that of a self-ping has no ping to wait for. -/
structure Spent (context : Nat) (state : State) : Prop where
  used : context < state.nextContext
  start : state.sessionStartTimeoutContext ≠ some context
  ping : state.sessionSelfPingContext = some context → state.Answered state.sessionSelfPingReqId

theorem react_spent (spent : Spent context before)
    (unfired : Unfired context before event) : (react event).wp (.keeping (Spent context)) before := by
  refine wp_mono (react_stepped unfired.1.1) (fun _ after stepped => ?_) nofun
  refine ⟨Nat.lt_of_lt_of_le spent.used stepped.contexts, fun armed => ?_, fun armed => ?_⟩
  · rcases stepped.start context armed with old | new
    · exact spent.start old
    · exact Nat.not_lt.mpr new.1 spent.used
  · have old : before.sessionSelfPingContext = some context :=
      (stepped.ping context armed).resolve_right fun new => Nat.not_lt.mpr new.1 spent.used
    rcases stepped.answered with ⟨same, answered⟩ | ⟨fired, busy, isPing, current⟩
    · rw [same]
      exact answered _ (spent.ping old)
    · cases old.symm.trans current
      simp [isPing, Unfired, Event.fires] at unfired

def State.marks (state : State) : Bool × Option Status := (state.sessionTimeout, state.currentFailure)

/-- A spent timer does not mark the session. -/
theorem Spent.unmarked (spent : Spent context before)
    (fires : event.fires context = true) :
    (react event).wp (.keeping fun after => after.marks = before.marks) before := by
  cases event with
  | sessionStartTimeout other =>
    cases of_decide_eq_true fires
    simp [react, onSessionStartTimeout, spent.start]
  | selfPingTimer other busy =>
    cases of_decide_eq_true fires
    simp only [react, onSelfPingTimer, doSendSimpleOp, wp_rules]
    refine ⟨fun current => ⟨fun _ => rfl, fun _ => ⟨fun waiting => ?_, fun _ => ⟨fun _ =>
      ⟨fun _ => rfl, fun _ => trivial⟩, fun _ => trivial⟩⟩⟩, fun _ => trivial⟩
    have answered := (spent.ping (of_decide_eq_true current)).2
    simp [State.findSentRequest, answered] at waiting
  | _ => contradiction

theorem timed_of_reachable {settings : Settings}
    (reached : Reachable react Kept { settings := settings } state) : Timed state :=
  reached.invariant ⟨nofun, fun armed => absurd rfl armed, nofun, Nat.one_pos⟩
    fun _ _ => react_timed

theorem used_of_reachable (used : context < before.nextContext)
    (reached : Reachable react Kept before after) : context < after.nextContext :=
  @Reachable.invariant _ _ _ _ react Kept before after (context < ·.nextContext) (fun _ => True)
    reached used fun _ _ used kept => wp_mono (react_stepped kept.1)
      (fun _ _ stepped => Nat.lt_of_lt_of_le used stepped.contexts) nofun

/-- A timer that was armed before the end of a connection was processed does not mark the
session as timed out when it fires after that. -/
theorem timers_end_with_connection {settings : Settings} {armed closing ended later : State}
    {event : Event} {context : Nat} {status : Status} {deadlinePassed : Bool}
    (reached : Reachable react Kept { settings := settings } armed)
    (isArmed : armed.sessionStartTimeoutContext = some context ∨
      armed.sessionSelfPingContext = some context)
    (onward : Reachable react Kept armed closing)
    (kept : Kept closing (.processorStatus status deadlinePassed))
    (ends : (react (.processorStatus status deadlinePassed)).step closing = .ok ended)
    (runs : Reachable react (Unfired context) ended later) (fires : event.fires context = true)
    (fired : (react event).step later = .ok after) :
    (after.sessionTimeout, after.currentFailure) = (later.sessionTimeout, later.currentFailure) := by
  have timed : Timed closing := timed_of_reachable (reached.trans onward)
  have stepped := wp_step (react_stepped kept.1) ends
  have used : context < closing.nextContext := by
    have armedThen := timed_of_reachable reached
    exact used_of_reachable (isArmed.elim (armedThen.start context) (armedThen.ping context)) onward
  have spent : Spent context ended := by
    refine ⟨Nat.lt_of_lt_of_le used stepped.contexts, fun again => ?_,
      fun _ => stepped.cleared _ _ rfl timed.pinged⟩
    rcases stepped.start context again with old | new
    · have reading := timed.reading (by simp [old])
      exact absurd (reading.symm.trans kept.1) nofun
    · exact Nat.not_lt.mpr new.1 used
  have spentThen : Spent context later := runs.invariant spent fun _ _ => react_spent
  have unmarked := wp_step (spentThen.unmarked fires) fired
  exact unmarked

theorem self_ping_ends_with_connection :
    ∃ closing ended after, Reachable react Kept {} closing ∧
      closing.sessionSelfPingContext = some 3 ∧
      (react (.processorStatus .success false)).step closing = .ok ended ∧
      (react (.selfPingTimer 3 false)).step ended = .ok after ∧
      (after.sessionTimeout, after.currentFailure) = (ended.sessionTimeout, ended.currentFailure) := by
  obtain ⟨closing, reached, armed, kept, ended, ends, after, fired, _⟩ : ∃ closing,
      Reachable react Kept {} closing ∧ closing.sessionSelfPingContext = some 3 ∧
      Kept closing (.processorStatus .success false) ∧
      ∃ ended, (react (.processorStatus .success false)).step closing = .ok ended ∧
      ∃ after, (react (.selfPingTimer 3 false)).step ended = .ok after ∧ True :=
    exists_reachable
      [.start true, .connectRequest, .connect .success, .connected, .read (.sessionStarted 7),
        .read (.failure .unavailable), .finish .success] (by decide +kernel)
  have unmarked := timers_end_with_connection reached (.inr armed) .start kept ends .start rfl fired
  exact ⟨closing, ended, after, reached, armed, ends, fired, unmarked⟩

/-- A session that was attached before reads a failure where its start is answered: the timer of
the start stays armed when the connection has ended, and stops the session. -/
theorem start_timer_outlives_connection :
    ∃ state after, Reachable react Promised {} state ∧
      state.connectionState = .disconnected ∧ state.sessionTimeout = false ∧
      (react (.sessionStartTimeout 6)).step state = .ok after ∧ after.sessionTimeout = true := by
  obtain ⟨state, reached, disconnected, unmarked, after, fired⟩ : ∃ state,
      Reachable react Promised {} state ∧ state.connectionState = .disconnected ∧
      state.sessionTimeout = false ∧ ∃ after, (react (.sessionStartTimeout 6)).step state = .ok after ∧
        after.sessionTimeout = true :=
    exists_reachable
      [.start true, .connectRequest, .connect .success, .connected, .read (.sessionStarted 7),
        .readFailed .unavailable, .processorStatus .unavailable false, .reschedule, .sleepFinished,
        .connectRequest, .connect .success, .connected, .read (.failure .unavailable),
        .finish .success, .processorStatus .success false] (by decide +kernel)
  exact ⟨state, after, reached, disconnected, unmarked, fired⟩

end YdbSdk.Coordination
