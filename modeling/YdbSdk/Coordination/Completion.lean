import YdbSdk.Coordination.Requests
import YdbSdk.Coordination.Restore

namespace YdbSdk.Coordination

open YdbSdk.Control YdbSdk.Data Code List

/-! # The operations of a coordination session over its life -/

variable {state after : State} {status : Status} {context reqId : Nat} {event : Event}
  {opType : OpType}

structure Live (state : State) : Prop where
  replayed : ∀ name, (state.semaphore name).Replayed state.noticed ∨
    state.waits name = [] ∧ ¬ state.link.Active
  connected : ∀ name, state.waits name ≠ [] → state.link.Connected

structure Sound (state : State) : Prop where
  tracked : Tracked state
  live : Live state
  requested : Requested [] state
  accounted : Accounted state
  linked : Linked state.link
  final : state.phase = .stopped → state.promises = []

theorem sound_start {settings : Settings} : Sound { settings := settings } := by
  have semaphore : ∀ name, State.semaphore { settings := settings } name = {} := fun _ => rfl
  refine ⟨⟨.nil, Nat.one_pos, nofun, fun name => ?_⟩,
    ⟨fun _ => .inl SemaphoreState.replayed_empty, fun name waits => absurd rfl waits⟩,
    ⟨.nil, nofun, nodup_nil, nofun, nofun, nofun⟩, ⟨nodup_nil, nofun, .refl _⟩, linked_start, nofun⟩
  rw [semaphore]
  constructor <;> simp [SemaphoreState.Has, SemaphoreState.Sent]

def State.futures (state : State) : List Nat × List Nat × Option Nat :=
  (state.reconnects, state.reconnected, state.reconnectPromise)

/-- The session stays sound; the futures of `Reconnect` are left alone, and the session does
not stop. -/
structure Stays (before after : State) : Prop where
  sound : Sound after
  futures : after.futures = before.futures
  grown : before.nextNumber ≤ after.nextNumber
  running : after.phase = .stopped → before.phase = .stopped

abbrev staysSound (state : State) : Contract Empty Assertion State α :=
  .keeping (Stays state) (fun _ => False)

def State.operations (state : State) :=
  (state.semaphores, state.semaphoreByReqId, state.noticed, state.pendingRequests, state.sentRequests,
    state.nextReqId, state.promises)

section

variable (sound : Sound state)
include sound

theorem Sound.relink (same : after.operations = state.operations)
    (grown : state.nextNumber ≤ after.nextNumber) (accounted : Accounted after)
    (relinked : Relinked state.link after.link) : Sound after := by
  obtain ⟨tracked, live, requested, -, -, final⟩ := sound
  simp only [State.operations, Prod.mk.injEq] at same
  obtain ⟨semaphores, byReqId, noticed, pending, sent, nextReqId, promises⟩ := same
  have semaphore : ∀ name, after.semaphore name = state.semaphore name := by
    intro name
    rw [State.semaphore, semaphores]
    rfl
  refine ⟨?_, ⟨fun name => ?_, fun name waits => ?_⟩, ?_, accounted, relinked.linked, fun stopped => ?_⟩
  · exact tracked.congr (semaphores ▸ tracked.names) semaphore byReqId (Nat.le_of_eq nextReqId.symm)
      fun _ _ => by rw [promises]
  · rw [State.waits, semaphore, noticed]
    exact (live.replayed name).imp_right fun unsent => unsent.imp_right fun inactive active =>
      inactive (relinked.active active)
  · rw [State.waits, semaphore] at waits
    exact relinked.connected (live.connected name waits)
  · refine requested.move ?_ (sent ▸ requested.keys) (sent ▸ nextReqId ▸ requested.below) grown
      fun _ => by rw [promises]
    rw [State.requests, State.requests, pending, sent]
  · rw [promises]
    exact final (relinked.running stopped)

def State.accounts (state : State) :=
  (state.operations, state.given, state.results, state.nextNumber, state.futures)

theorem Sound.stays (same : after.accounts = state.accounts)
    (relinked : Relinked state.link after.link) : Stays state after := by
  simp only [State.accounts, Prod.mk.injEq] at same
  obtain ⟨operations, given, results, nextNumber, futures⟩ := same
  have promises : after.promises = state.promises := by
    simp only [State.operations, Prod.mk.injEq] at operations
    exact operations.2.2.2.2.2.2
  have accounted : Accounted after := by
    refine ⟨given ▸ sound.accounted.given, given ▸ nextNumber ▸ sound.accounted.bounded, ?_⟩
    rw [given, results, promises]
    exact sound.accounted.settled
  exact ⟨sound.relink operations (Nat.le_of_eq nextNumber.symm) accounted relinked, futures,
    Nat.le_of_eq nextNumber.symm, relinked.running⟩

theorem Sound.refl : Stays state state :=
  ⟨sound, rfl, Nat.le_refl _, id⟩

omit sound in
theorem Stays.trans (first : Stays state middle) (second : Stays middle after) :
    Stays state after :=
  ⟨second.sound, second.futures.trans first.futures, Nat.le_trans first.grown second.grown,
    first.running ∘ second.running⟩

omit sound in
theorem stays_of_link (linked : Linked state.link) (running : state.phase ≠ .stopped)
    (link : after.link = state.link) (grown : state.nextNumber ≤ after.nextNumber)
    (tracked : Tracked after) (live : Live after) (requested : Requested [] after)
    (accounted : Accounted after) : Stays state after := by
  have phase : after.phase = state.phase := congrArg Link.phase link
  refine ⟨⟨tracked, live, requested, accounted, link ▸ linked, fun stopped => ?_⟩, ?_, grown, fun stopped => ?_⟩
  · exact absurd (phase.symm.trans stopped) running
  · exact congrArg (fun link : Link => (link.reconnects, link.reconnected, link.reconnectPromise)) link
  · exact phase.symm.trans stopped

omit sound in
theorem Asked.tracked (asked : Asked state after) (tracked : Tracked state) :
    Tracked after ∧ (∀ name, after.semaphore name = state.semaphore name) ∧ after.noticed = state.noticed := by
  have desk := asked.desk
  simp only [Prod.mk.injEq] at desk
  obtain ⟨semaphores, byReqId, noticed⟩ := desk
  have semaphore : ∀ name, after.semaphore name = state.semaphore name := by
    intro name
    rw [State.semaphore, semaphores]
    rfl
  exact ⟨tracked.congr (semaphores ▸ tracked.names) semaphore byReqId asked.grown.1 asked.promises, semaphore,
    noticed⟩

theorem Sound.ask (running : state.phase ≠ .stopped) (asked : Asked state after) :
    Stays state after := by
  obtain ⟨tracked, semaphore, noticed⟩ := asked.tracked sound.tracked
  refine stays_of_link sound.linked running asked.link asked.grown.2 tracked
    ⟨fun name => ?_, fun name => ?_⟩ asked.requested asked.accounted
  · rw [State.waits, semaphore, noticed, asked.link]
    exact sound.live.replayed name
  · rw [State.waits, semaphore, asked.link]
    exact sound.live.connected name

omit sound in
theorem Requested.operate (requested : Requested [] state) (operated : Operated state after) :
    Requested [] after := by
  have same := operated.requests
  simp only [Prod.mk.injEq] at same
  refine requested.move ?_ (same.2 ▸ requested.keys) ?_ operated.grown.2 operated.promises
  · rw [State.requests, State.requests, same.1, same.2]
  · rw [same.2]
    exact fun entry member => Nat.lt_of_lt_of_le (requested.below entry member) operated.grown.1

theorem Sound.turn (running : state.phase ≠ .stopped)
    (turned : Turned name state after) : Stays state after := by
  have attached : state.isWriteAllowed = true → state.link.Connected :=
    fun allowed => .inl (State.isWriteAllowed_link.mp allowed).2.1
  refine stays_of_link sound.linked running turned.link turned.grown.2 turned.tracked
    ⟨fun other => ?_, fun other waits => ?_⟩ (sound.requested.operate turned.toOperated) turned.accounted
  · rw [turned.link]
    by_cases same : other = name
    · subst same
      rcases turned.own with ⟨replayed, _⟩ | ⟨unchanged, stays⟩
      · exact .inl replayed
      · rw [unchanged]
        exact (sound.live.replayed other).imp_left stays
    · rw [State.waits, turned.others other same]
      exact (sound.live.replayed other).imp_left fun replayed => replayed.mono turned.noticed
  · rw [turned.link]
    by_cases same : other = name
    · subst same
      rcases turned.own with ⟨_, allowed⟩ | ⟨unchanged, _⟩
      · exact attached allowed
      · exact sound.live.connected other (unchanged ▸ waits)
    · rw [State.waits, turned.others other same] at waits
      exact sound.live.connected other waits

theorem Sound.answerable (reading : state.phase = .reading) : Answerable state := by
  intro name waits
  have attached : state.link.sessionState = .attached := by
    have connected := sound.live.connected name waits
    simpa [Link.Connected, State.link, reading] using connected
  obtain ⟨_, connected, processor, _⟩ := sound.linked.attached attached
  exact ⟨State.isWriteAllowed_link.mpr ⟨processor, attached, connected⟩,
    (sound.live.replayed name).resolve_right fun unsent => waits unsent.1⟩

/-! ## Calls of the user -/

theorem Sound.closed (stopped : state.phase = .stopped) : state.isClosed = true := by
  have stopping : state.isStopping = true := (sound.linked.stopped stopped).1
  simp [State.isClosed, stopping]

theorem Sound.running (isOpen : state.isClosed = false) : state.phase ≠ .stopped := by
  intro stopped
  rw [sound.closed stopped] at isOpen
  contradiction

omit sound in
theorem makeClosedResult_stays
    (numbered : ∀ number, (promiseOf number).number = number) (sound : Sound state) :
    (makeClosedResult promiseOf).wp (staysSound state) state :=
  ⟨sound.relink rfl (Nat.le_succ _) (sound.accounted.closed numbered) sound.linked.relinked, rfl,
    Nat.le_succ _, id⟩

theorem doAcquireRelease_stays {name : String} :
    (doAcquireRelease name opType).wp (staysSound state) state := by
  cases isClosed : state.isClosed with
  | true =>
    simp only [doAcquireRelease, wp_rules, isClosed]
    exact ⟨fun _ => makeClosedResult_stays (fun _ => rfl) sound, fun isOpen => absurd trivial isOpen⟩
  | false =>
    refine wp_mono (doAcquireRelease_turned sound.tracked sound.accounted isClosed fun allowed => ?_)
      (fun _ _ => sound.turn (sound.running isClosed)) (by simp)
    refine (sound.live.replayed name).resolve_right fun unsent => unsent.2 ?_
    exact ⟨(State.isWriteAllowed_link.mp allowed).2.1, (Bool.or_eq_false_iff.mp isClosed).1⟩

theorem doSimpleOp_stays {kind : SimpleKind} : (doSimpleOp kind).wp (staysSound state) state := by
  cases isClosed : state.isClosed with
  | true =>
    simp only [doSimpleOp, wp_rules, isClosed]
    exact ⟨fun _ => makeClosedResult_stays (fun _ => rfl) sound, fun isOpen => absurd trivial isOpen⟩
  | false =>
    exact wp_mono (doSimpleOp_asked sound.requested sound.accounted isClosed)
      (fun _ _ => sound.ask (sound.running isClosed)) (by simp)

theorem stop_stays : stop.wp (staysSound state) state := by
  simp only [stop, wp_rules, setCurrentFailureIfNone_wp]
  refine sound.stays rfl ?_
  cases sound.linked
  (constructor; constructor) <;> grind

theorem doClose_stays {isAbort : Bool} : (doClose isAbort).wp (staysSound state) state := by
  have processor : state.isWriteAllowed = true → state.processor = true := by
    intro allowed
    simp only [State.isWriteAllowed, Bool.and_eq_true] at allowed
    exact allowed.1.1
  have aborts : ∀ closed, (state.closedPromise = true → closed = true) → (Code.when isAbort do
      .update fun state => { state with isStopping := true }
      setCurrentFailureIfNone .unavailable : Session Unit).wp (staysSound state)
      { state with closedPromise := closed } := by
    intro closed stays
    simp only [wp_rules, setCurrentFailureIfNone_wp]
    refine ⟨fun _ => sound.stays rfl ?_, fun _ => sound.stays rfl ?_⟩
    all_goals
      cases sound.linked
      (constructor; constructor) <;> grind
  unfold doClose
  rw [wp_bind, wp_get]
  simp only [sendCloseRequest, wp_rules, true_imp_iff]
  have aborting := aborts true fun _ => rfl
  have staying := aborts state.closedPromise id
  simp only [wp_rules] at aborting staying
  exact ⟨fun _ => ⟨fun allowed => ⟨fun _ => ⟨aborting, by simp⟩,
    fun absent => absurd ((processor allowed).symm.trans absent) (by simp)⟩, fun _ => aborting⟩,
      fun _ => staying⟩

/-! ## Connections -/

theorem start_stays {context : Bool} (created : state.phase = .created) :
    (start context).wp (staysSound state) state := by
  simp only [start, wp_rules]
  refine ⟨fun _ => sound.stays rfl ?_, fun _ => sound.stays rfl ?_⟩
  all_goals
    cases sound.linked
    (constructor; constructor) <;> grind

theorem doConnectRequest_stays (waking : state.phase = .waking) :
    doConnectRequest.wp (staysSound state) state := by
  simp only [doConnectRequest, newContext, wp_rules]
  refine ⟨fun _ => sound.stays rfl ?_, fun _ => sound.stays rfl ?_⟩
  all_goals
    cases sound.linked
    (constructor; constructor) <;> grind

theorem onConnectTimeout_stays : (onConnectTimeout context).wp (staysSound state) state := by
  simp only [onConnectTimeout, wp_rules, setCurrentFailureIfNone_wp]
  refine ⟨fun current => ⟨fun _ => sound.stays rfl ?_, fun absent => ?_⟩, fun _ => sound.refl⟩
  · cases sound.linked
    (constructor; constructor) <;> grind
  · have isSome := sound.linked.timeout (by simp [State.link, of_decide_eq_true current])
    exact absurd (absent.symm.trans isSome) (by simp)

theorem onConnect_stays (connecting : state.phase = .connecting) :
    (onConnect status).wp (staysSound state) state := by
  simp only [onConnect, wp_rules]
  refine ⟨fun _ => sound.stays rfl ?_, fun _ => ⟨fun _ => sound.stays rfl ?_,
    fun _ => sound.stays rfl ?_⟩⟩
  all_goals
    cases sound.linked
    (constructor; constructor) <;> grind

theorem onSessionStartTimeout_stays :
    (onSessionStartTimeout context).wp (staysSound state) state := by
  simp only [onSessionStartTimeout, wp_rules, setCurrentFailureIfNone_wp]
  exact ⟨fun _ => sound.stays rfl sound.linked.relinked, fun _ => sound.refl⟩

theorem onSelfPingTimer_stays :
    (onSelfPingTimer context busy).wp (staysSound state) state := by
  by_cases stopped : state.phase = .stopped
  · have denied : state.isWriteAllowed = false := by
      rw [Bool.eq_false_iff]
      intro allowed
      have reading : state.phase = .reading :=
        (sound.linked.attached (State.isWriteAllowed_link.mp allowed).2.1).1
      rw [stopped] at reading
      contradiction
    simp only [onSelfPingTimer, denied, wp_rules]
    exact ⟨fun _ => ⟨fun _ => sound.stays rfl sound.linked.relinked, fun allowed => absurd rfl allowed⟩,
      fun _ => sound.refl⟩
  · exact wp_mono (onSelfPingTimer_asked sound.requested sound.accounted)
      (fun _ _ => sound.ask stopped) (by simp)

omit sound in
theorem State.expire_link (state : State) :
    state.expire.link = { state.link with
      sessionState := if state.sessionId ≠ 0 then .expired else state.sessionState } ∧
    state.expire.accounts = state.accounts := by
  unfold State.expire
  split <;> exact ⟨rfl, rfl⟩

omit sound in
theorem State.detach_link (state : State) :
    state.detach.link = { state.link with
      sessionState := if state.sessionState = .attached then .detached else state.sessionState } ∧
    state.detach.accounts = state.accounts := by
  unfold State.detach
  split <;> exact ⟨rfl, rfl⟩

theorem failure_stays (reading : state.phase = .reading) :
    (failure status).wp (staysSound state) state := by
  simp only [failure, wp_rules, setCurrentFailureIfNone_wp]
  refine ⟨fun _ => sound.stays ?_ ?_, fun _ => sound.stays ?_ ?_⟩
  · exact (State.detach_link _).2.trans (State.expire_link _).2
  · show Relinked _ { State.link (State.detach _) with phase := .finishing }
    rw [(State.detach_link _).1, (State.expire_link _).1]
    cases sound.linked
    (constructor; constructor) <;> grind
  · exact (State.detach_link _).2
  · show Relinked _ { State.link (State.detach _) with phase := .finishing }
    rw [(State.detach_link _).1]
    cases sound.linked
    (constructor; constructor) <;> grind

theorem sessionStopped_stays (reading : state.phase = .reading) :
    sessionStopped.wp (staysSound state) state := by
  have numbered : state.sessionState = .attached → state.sessionId ≠ 0 :=
    fun attached => (sound.linked.attached attached).2.2.2
  simp only [sessionStopped, wp_rules, setCurrentFailureIfNone_wp]
  refine ⟨fun detached => sound.stays (State.expire_link _).2 ?_, fun attached => ?_⟩
  · show Relinked _ { State.link (State.expire _) with phase := .finishing }
    rw [(State.expire_link _).1]
    cases sound.linked
    (constructor; constructor) <;> grind
  · grind [State.expire]

theorem onReadFailed_stays (reading : state.phase = .reading) :
    (onReadFailed status).wp (staysSound state) state := by
  simp only [onReadFailed, wp_update]
  refine sound.stays (State.detach_link _).2 ?_
  rw [(State.detach_link _).1]
  cases sound.linked
  (constructor; constructor) <;> grind

theorem onFinish_stays (finishing : state.phase = .finishing) :
    (onFinish status).wp (staysSound state) state := by
  simp only [onFinish, wp_update]
  refine sound.stays rfl ?_
  cases sound.linked
  (constructor; constructor) <;> grind

theorem reschedule_stays (rescheduling : state.phase = .rescheduling) :
    reschedule.wp (staysSound state) state := by
  have awake : state.sleepContext = false := by
    simpa [State.link, rescheduling] using sound.linked.sleeping
  simp only [reschedule, wp_rules, awake]
  refine ⟨fun _ => sound.stays rfl ?_, by simp⟩
  cases sound.linked
  (constructor; constructor) <;> grind

theorem onSleepFinished_stays (sleeping : state.phase = .sleeping) :
    onSleepFinished.wp (staysSound state) state := by
  have asleep : state.sleepContext = true := by
    simpa [State.link, sleeping] using sound.linked.sleeping
  have context : state.localContext = true :=
    sound.linked.context (by simp [State.link, sleeping]) (by simp [State.link, sleeping])
  simp only [onSleepFinished, wp_rules, asleep, context]
  refine ⟨fun _ => ⟨fun _ => sound.stays rfl ?_, fun _ => ⟨fun _ => sound.stays rfl ?_, by simp⟩⟩, by simp⟩
  all_goals
    cases sound.linked
    (constructor; constructor) <;> grind

omit sound in
theorem resumeOperations_stays (tracked : Tracked state) (requested : Requested [] state)
    (accounted : Accounted state) (linked : Linked state.link) (allowed : state.isWriteAllowed = true)
    (unsent : ∀ name, state.waits name = []) : resumeOperations.wp
      (.keeping (fun after => Stays state after ∧ after.link = state.link) (fun _ => False)) state := by
  obtain ⟨_, attached, _⟩ := State.isWriteAllowed_link.mp allowed
  have running : state.phase ≠ .stopped := by
    have reading : state.phase = .reading := (linked.attached attached).1
    simp [reading]
  unfold resumeOperations
  rw [wp_bind, wp_read]
  dsimp only
  rw [wp_bind]
  refine wp_mono (restoreSemaphores_operated tracked accounted allowed unsent) (fun _ middle met => ?_) nofun
  obtain ⟨operated, replayed⟩ := met
  refine wp_mono (sendPending_asked (requested.operate operated) operated.accounted
    (operated.allowed.mpr allowed)) (fun _ after asked => ?_) nofun
  obtain ⟨trackedAfter, semaphore, noticed⟩ := asked.tracked operated.tracked
  have link : after.link = state.link := asked.link.trans operated.link
  refine ⟨stays_of_link linked running link (Nat.le_trans operated.grown.2 asked.grown.2) trackedAfter
    ⟨fun name => .inl ?_, fun _ _ => .inl (link ▸ attached)⟩ asked.requested asked.accounted, link⟩
  rw [semaphore, noticed]
  exact replayed name

theorem startSelfPing_stays (context : state.localContext = true) :
    startSelfPing.wp (staysSound state) state := by
  simp only [startSelfPing, wp_rules]
  exact ⟨fun _ => ⟨fun _ => sound.stays rfl sound.linked.relinked,
    fun absent => absurd (context.symm.trans absent) (by simp)⟩, fun _ => sound.refl⟩

theorem sessionStarted_stays {sessionId : Nat}
    (reading : state.phase = .reading) (numbered : 0 < sessionId)
    (attaching : state.connectionState = .attaching) :
    (sessionStarted sessionId).wp (staysSound state) state := by
  have detached : state.sessionState ≠ .attached := by
    intro attached
    have connected : state.connectionState = .connected := (sound.linked.attached attached).2.1
    rw [attaching] at connected
    contradiction
  have processor : state.processor = true := sound.linked.reading reading
  have context : state.localContext = true :=
    sound.linked.context (by simp [State.link, reading]) (by simp [State.link, reading])
  simp only [sessionStarted, sessionAttached, wp_rules]
  refine ⟨fun _ => ⟨fun _ => ⟨fun _ => ?_, fun other => ?_⟩, fun isAttached => ?_⟩, fun none => ?_⟩
  · generalize attachedEq : ({ state with
      sessionId := sessionId
      handed := state.handed || state.sessionPromise
      sessionPromise := false
      sessionStartTimeoutContext := none
      sessionState := .attached
      connectionState := .connected
      sessionExpireDeadline := false } : State) = attached
    have linked : Linked attached.link := by
      rw [← attachedEq]
      cases sound.linked
      constructor <;> grind
    have pings (after : State) (stays : Stays state after) (same : after.link = attached.link) :
        startSelfPing.wp (staysSound state) after := by
      have hasContext : after.localContext = true := by
        have sameContext : after.localContext = attached.localContext := congrArg Link.localContext same
        rw [sameContext, ← attachedEq]
        exact context
      exact wp_mono (startSelfPing_stays stays.sound hasContext) (fun _ _ => stays.trans) (by simp)
    have resumes : (Code.when (!state.isStopping) resumeOperations).wp
        ⟨fun _ after => startSelfPing.wp (staysSound state) after,
          fun _ => Stays state, fun _ => False⟩ attached := by
      rw [wp_when]
      refine ⟨fun _ => ?_, fun stays => ?_⟩
      · have sent : Tracked attached ∧ Requested [] attached ∧ Accounted attached := by
          rw [← attachedEq]
          exact ⟨{ sound.tracked with }, { sound.requested with }, { sound.accounted with }⟩
        refine wp_mono (resumeOperations_stays sent.1 sent.2.1 sent.2.2 linked ?_ fun name => ?_)
          (fun _ after met => ?_) (by simp)
        · simp [← attachedEq, State.isWriteAllowed, processor]
        · by_contra waits
          rw [← attachedEq] at waits
          have connected := sound.live.connected name waits
          simp [Link.Connected, State.link, reading, detached] at connected
        · obtain ⟨resumed, link⟩ := met
          refine pings after ⟨resumed.sound, resumed.futures.trans ?_, Nat.le_trans ?_ resumed.grown, ?_⟩ link
          · rw [← attachedEq]
            rfl
          · refine Nat.le_of_eq ?_
            rw [← attachedEq]
          · intro stopped
            have wasStopped := resumed.running stopped
            rwa [← attachedEq] at wasStopped
      · -- A session that is to stop sends nothing again.
        refine pings attached (sound.stays (by rw [← attachedEq]; rfl) ⟨linked, ?_, ?_, ?_⟩) rfl
        all_goals
          rw [← attachedEq]
          grind
    have closing : attached.closedPromise = state.closedPromise := by rw [← attachedEq]
    have hasProcessor : attached.processor = true := by rw [← attachedEq]; exact processor
    simp only [sendCloseRequest, wp_rules, closing, hasProcessor, true_imp_iff] at resumes ⊢
    exact ⟨fun closed => ⟨⟨fun _ => resumes, fun isOpen => absurd (closed.symm.trans isOpen) (by simp)⟩, by simp⟩,
      fun _ => resumes⟩
  · exact absurd attaching (of_decide_eq_false other)
  · exact detached (not_not.mp (of_decide_eq_false isAttached))
  · exact absurd numbered (of_decide_eq_false none)

end

/-! ## The end of a connection -/

theorem request_not_mem_semaphorePromises (number : Nat) :
    .request number ∉ state.semaphorePromises ops := by
  simp [State.semaphorePromises]

section Failing

variable {ended : State} {ops : SemaphoreState → List SemaphoreOp} {requests rest : List SimpleOp}

structure Failed (ops : SemaphoreState → List SemaphoreOp) (requests : List SimpleOp)
    (state ended after : State) : Prop
    extends Settles (state.semaphorePromises ops ++ requests.map fun op => .request op.number) ended after where
  semaphore : ∀ name number, .semaphore name number ∈ after.promises ↔
    .semaphore name number ∈ state.promises ∧ .semaphore name number ∉ state.semaphorePromises ops
  request : ∀ number, .request number ∈ after.promises ↔
    .request number ∈ state.promises ∧ ∀ op ∈ requests, op.number ≠ number

theorem failOperations_failed {semaphoreStatus : Status} (sound : Sound state)
    (within : ∀ name, ∀ op ∈ ops (state.semaphore name), (state.semaphore name).Has op)
    (distinct : ∀ name, (ops (state.semaphore name)).Nodup)
    (perm : (state.requests []).Perm (requests ++ rest)) (accounted : Accounted ended)
    (promises : ended.promises = state.promises) :
    (failOperations (state.semaphorePromises ops) semaphoreStatus requests status).wp
      (.keeping (Failed ops requests state ended) (fun _ => False)) ended := by
  have unanswered : ∀ op ∈ requests, op.kind.isDescribe = false → .request op.number ∈ state.promises :=
    fun op member => sound.requested.unanswered op (perm.mem_iff.mpr (mem_append_left _ member))
  have numbers := (perm.map SimpleOp.number).nodup_iff.mp sound.requested.numbers
  rw [map_append, nodup_append] at numbers
  have held := sound.tracked.held_semaphorePromises within
  rw [← promises] at held unanswered
  refine wp_mono (failOperations_settles accounted
    (sound.tracked.nodup_semaphorePromises within distinct) held request_not_mem_semaphorePromises
    numbers.1 unanswered)
    (fun _ after settles => ⟨settles, fun name number => ?_, fun number => ?_⟩) nofun
  · rw [settles.promises, promises]
    simp
  · rw [settles.promises, promises]
    simp [request_not_mem_semaphorePromises]

end Failing

section

variable (sound : Sound state)
include sound

theorem disconnect_stays (detached : state.sessionState ≠ .attached)
    (running : state.phase = .failing status) {reported : Status} :
    (disconnect reported).wp (staysSound state) state := by
  have perm : (state.requests []).Perm (state.sentRequests.map Prod.snd ++ state.pendingRequests) := by
    rw [State.requests, append_nil]
    exact perm_append_comm
  simp only [disconnect, wp_rules]
  generalize endedEq : ({ state with
      sessionExpireDeadline := true
      connectionState := .disconnected
      currentFailure := none
      semaphores := state.semaphores.map fun entry => (entry.1, { entry.2 with waitingOps := [] })
      semaphoreByReqId := []
      sentRequests := []
      noticed := []
      phase := .rescheduling } : State) = ended
  have linked : Linked ended.link := by
    rw [← endedEq]
    cases sound.linked
    constructor <;> grind
  have accounted : Accounted ended := by
    rw [← endedEq]
    exact { sound.accounted with }
  refine wp_mono (failOperations_failed sound
    (fun _ _ member => .inl (.inl (mem_of_mem_filter member)))
    (fun name => (sound.tracked.cells name).waiting.filter _) perm accounted (by rw [← endedEq]))
    (fun _ after failed => ?_) (by simp)
  have tables := failed.tables
  simp only [Prod.mk.injEq] at tables
  obtain ⟨semaphores, byReqId, pending, sent, nextReqId, nextNumber, -⟩ := tables
  rw [← endedEq] at semaphores byReqId pending sent nextReqId nextNumber
  obtain ⟨tracked, semaphore⟩ := sound.tracked.disconnect semaphores byReqId nextReqId failed.semaphore
  have unsent : ∀ name, after.waits name = [] := fun name => congrArg SemaphoreState.waitingOps (semaphore name)
  have inactive : ¬ ended.link.Active := by
    rw [← endedEq]
    exact fun active => detached active.1
  have requested : Requested [] after := by
    refine sound.requested.leave ?_ ?_ ?_ (Nat.le_of_eq nextNumber.symm) failed.request
    · simpa [State.requests, pending, sent] using perm_append_comm
    · rw [sent]
      exact .nil
    · rw [sent]
      simp
  have stays : Stays ended after :=
    stays_of_link linked (by rw [← endedEq]; simp) failed.link
      (Nat.le_of_eq (by rw [nextNumber, ← endedEq])) tracked
      ⟨fun name => .inr ⟨unsent name, failed.link ▸ inactive⟩, fun name waits => absurd (unsent name) waits⟩
      requested failed.accounted
  refine ⟨stays.sound, stays.futures.trans (by rw [← endedEq]; rfl), Nat.le_of_eq nextNumber.symm, ?_⟩
  intro stopped
  have wasStopped := stays.running stopped
  rw [← endedEq] at wasStopped
  contradiction

theorem stopSession_sound (detached : state.sessionState ≠ .attached)
    (running : state.phase = .failing status) {reported : Status} :
    (stopSession reported).wp (.keeping (fun after => Sound after ∧
      after.futures = (state.reconnects, state.reconnected, none) ∧
      state.nextNumber ≤ after.nextNumber) (fun _ => False)) state := by
  have perm : (state.requests []).Perm (state.sentRequests.map Prod.snd ++ state.pendingRequests ++ []) := by
    simpa [State.requests] using perm_append_comm
  simp only [stopSession, wp_rules]
  refine wp_mono (failOperations_failed sound (fun _ _ => SemaphoreState.mem_failed.mp)
    sound.tracked.nodup_failed perm (by split <;> exact { sound.accounted with }) (by split <;> rfl))
    (fun _ after failed => ?_) (by simp)
  have tables : _ = ([], [], [], [], state.nextReqId, state.nextNumber, state.noticed) :=
    failed.tables.trans (by split <;> rfl)
  simp only [Prod.mk.injEq] at tables
  obtain ⟨semaphores, byReqId, pending, sent, nextReqId, nextNumber, -⟩ := tables
  have none : after.promises = [] := by
    apply eq_nil_iff_forall_not_mem.mpr
    intro promise held
    cases promise with
    | semaphore name number =>
      obtain ⟨isHeld, apart⟩ := (failed.semaphore name number).mp held
      obtain ⟨op, has, same⟩ := ((sound.tracked.cells name).covered number).mp isHeld
      exact apart ((sound.tracked.mem_semaphorePromises rfl).mpr ⟨op, SemaphoreState.mem_failed.mpr has, same⟩)
    | request number =>
      obtain ⟨isHeld, apart⟩ := (failed.request number).mp held
      obtain ⟨op, member, same⟩ := sound.requested.held number isHeld
      rw [append_nil] at perm
      exact apart op (perm.mem_iff.mp member) same
  have tracked : Tracked after := sound.tracked.stop semaphores byReqId nextReqId (by simp [none])
  have empty : ∀ name, after.semaphore name = {} := by
    intro name
    rw [State.semaphore, semaphores]
    rfl
  have requested : Requested [] after := by
    refine sound.requested.leave (by simpa [State.requests, pending, sent] using perm) ?_ ?_
      (Nat.le_of_eq nextNumber.symm) failed.request
    · rw [sent]
      exact .nil
    · rw [sent]
      simp
  refine ⟨⟨{ tracked with }, ⟨fun name => .inl ?_, fun name waits => ?_⟩, { requested with },
    { failed.accounted with }, ?_, fun _ => none⟩, ?_, Nat.le_of_eq nextNumber.symm⟩
  · show (after.semaphore name).Replayed after.noticed
    rw [empty name]
    exact SemaphoreState.replayed_empty
  · exact absurd (congrArg SemaphoreState.waitingOps (empty name)) waits
  · show Linked { after.link with closed := after.link.closed ++ [_] }
    rw [failed.link]
    cases sound.linked
    constructor <;> split <;> grind
  · show (after.link.reconnects, after.link.reconnected, after.link.reconnectPromise) = _
    rw [failed.link]
    split <;> rfl

theorem onProcessorStatus_sound {deadlinePassed : Bool} (failing : state.phase = .failing status) :
    (onProcessorStatus status deadlinePassed).wp (.keeping (fun after => Sound after ∧
      state.nextNumber ≤ after.nextNumber ∧
      (after.futures = state.futures ∧ after.phase ≠ .stopped ∨ state.stops deadlinePassed = true ∧
        after.futures = (state.reconnects, state.reconnected, none))) (fun _ => False)) state := by
  have detached : state.sessionState ≠ .attached := by
    intro attached
    have reading := (sound.linked.attached attached).1
    simp [State.link, failing] at reading
  have context : state.localContext = true :=
    sound.linked.context (by simp [State.link, failing]) (by simp [State.link, failing])
  have ended : Stays state { state with processor := false } := by
    refine sound.stays rfl ?_
    cases sound.linked
    (constructor; constructor) <;> grind
  simp only [onProcessorStatus, wp_rules]
  refine ⟨fun _ => ⟨fun _ => ⟨fun stops => ?_, fun _ => ?_⟩, fun isAttached => ?_⟩,
    fun absent => absurd (context.symm.trans absent) (by simp)⟩
  · exact wp_mono (stopSession_sound ended.sound detached failing)
      (fun _ after met => ⟨met.1, met.2.2, .inr ⟨stops, met.2.1⟩⟩) (by simp)
  · refine wp_mono (disconnect_stays ended.sound detached failing) (fun _ after stays => ?_) (by simp)
    refine ⟨stays.sound, stays.grown, .inl ⟨stays.futures, fun stopped => ?_⟩⟩
    have running := stays.running stopped
    simp [failing] at running
  · exact detached (not_not.mp (of_decide_eq_false isAttached))

omit sound in
theorem waitingType_eq (answers : state.waitingType reqId ≠ some other)
    (pair : ∀ actual, actual = opType ∨ actual = other) :
    ∀ actual, state.waitingType reqId = some actual → actual = opType := by
  intro actual found
  rcases pair actual with same | differs
  · exact same
  · rw [found, differs] at answers
    contradiction

theorem onRead_stays {response : Response} (reading : state.phase = .reading)
    (answers : Answers state response) : (onRead response).wp (staysSound state) state := by
  have processor : state.processor = true := sound.linked.reading reading
  have running : state.phase ≠ .stopped := by simp [reading]
  have simple {reqId : Nat} {wanted : SimpleKind → Bool} {watchAdded : Bool} {status : Status}
      (watchable : watchAdded = true → ∀ kind, wanted kind = true → kind.isDescribe = true) :
      (simpleResult reqId wanted watchAdded status).wp (staysSound state) state :=
    wp_mono (simpleResult_asked sound.requested sound.accounted watchable)
      (fun _ _ => sound.ask running) (by simp)
  have result {reqId : Nat} {opType : OpType} {status : Status} {value : Bool}
      (typed : ∀ actual, state.waitingType reqId = some actual → actual = opType) :
      (doSemaphoreProcessResult reqId opType status value).wp (staysSound state) state :=
    wp_mono (doSemaphoreProcessResult_turned sound.tracked sound.accounted (sound.answerable reading)
      typed) (fun _ _ taken => taken.elim fun _ turned => sound.turn running turned) (by simp)
  simp only [onRead, wp_rules]
  refine ⟨fun _ => ?_, fun absent => absurd (processor.symm.trans absent) (by simp)⟩
  cases response with
  | failure status => exact failure_stays sound reading
  | sessionStarted sessionId => exact sessionStarted_stays sound reading answers.1 answers.2
  | sessionStopped => exact sessionStopped_stays sound reading
  | acquireSemaphorePending reqId =>
    exact wp_mono (acquireSemaphorePending_turned sound.tracked sound.accounted
      (sound.answerable reading) answers.1
      (waitingType_eq answers.2 fun actual => by cases actual <;> simp))
      (fun _ _ taken => taken.elim fun _ turned => sound.turn running turned) (by simp)
  | acquireSemaphoreResult reqId status value | releaseSemaphoreResult reqId status value =>
    exact result (waitingType_eq answers fun actual => by cases actual <;> simp)
  | describeSemaphoreResult reqId status watchAdded => exact simple fun _ _ => id
  | describeSemaphoreChanged reqId dataChanged ownersChanged =>
    exact wp_mono (describeSemaphoreChanged_asked sound.requested sound.accounted answers)
      (fun _ _ => sound.ask running) (by simp)
  | pong _ | createSemaphoreResult _ _ | updateSemaphoreResult _ _ | deleteSemaphoreResult _ _ =>
    exact simple (by simp)

/-! ## Runs -/

def Event.settles : Event → Bool
  | .reconnect | .connected | .processorStatus _ _ => true
  | _ => false

theorem react_stays (promised : Promised state event)
    (ordinary : event.settles = false) : (react event).wp (staysSound state) state := by
  cases event with
  | start context => exact start_stays sound promised.1
  | stop => exact stop_stays sound
  | close isAbort => exact doClose_stays sound
  | acquireSemaphore name | releaseSemaphore name => exact doAcquireRelease_stays sound
  | ping | describeSemaphore _ _ _ | createSemaphore | updateSemaphore | deleteSemaphore =>
    exact doSimpleOp_stays sound
  | connectRequest => exact doConnectRequest_stays sound promised
  | connectTimeout context => exact onConnectTimeout_stays sound
  | connect status => exact onConnect_stays sound promised
  | sessionStartTimeout context => exact onSessionStartTimeout_stays sound
  | selfPingTimer context busy => exact onSelfPingTimer_stays sound
  | read response => exact onRead_stays sound promised.1 promised.2
  | readFailed status => exact onReadFailed_stays sound promised
  | finish status => exact onFinish_stays sound promised
  | reschedule => exact reschedule_stays sound promised
  | sleepFinished => exact onSleepFinished_stays sound promised
  | reconnect | connected | processorStatus _ _ => contradiction

theorem doReconnect_sound : doReconnect.wp (.keeping Sound (fun _ => False)) state := by
  have accounted : Accounted { state with nextNumber := state.nextNumber + 1 } :=
    { sound.accounted with
      bounded := fun promise member => Nat.lt_succ_of_lt (sound.accounted.bounded promise member) }
  have relinked (after : State) (same : after.link = { state.link with
      reconnects := after.reconnects, reconnected := after.reconnected,
      reconnectPromise := after.reconnectPromise }) : Relinked state.link after.link := by
    rw [same]
    exact ⟨{ sound.linked with }, id, id, id⟩
  simp only [doReconnect, wp_rules]
  exact ⟨fun _ => sound.relink rfl (Nat.le_succ _) { accounted with } (relinked _ rfl),
    fun _ => ⟨fun _ => sound.relink rfl (Nat.le_succ _) { accounted with } (relinked _ rfl), fun _ => sound⟩⟩

theorem onConnected_sound (connected : state.phase = .connected) :
    onConnected.wp (.keeping Sound (fun _ => False)) state := by
  have context : state.localContext = true :=
    sound.linked.context (by simp [State.link, connected]) (by simp [State.link, connected])
  simp only [onConnected, newContext, wp_rules]
  refine ⟨fun _ => ⟨fun _ => ?_, fun absent => absurd (context.symm.trans absent) (by simp)⟩, fun _ => ?_⟩
  all_goals
    refine sound.relink rfl (Nat.le_refl _) { sound.accounted with } ?_
    cases sound.linked
    (constructor; constructor) <;> grind

theorem react_sound (promised : Promised state event) :
    (react event).wp (.keeping Sound (fun _ => False)) state := by
  cases settles : event.settles with
  | false => exact wp_mono (react_stays sound promised settles) (fun _ _ stays => stays.sound) nofun
  | true =>
    cases event with
    | reconnect => exact doReconnect_sound sound
    | connected => exact onConnected_sound sound promised
    | processorStatus status deadlinePassed =>
      exact wp_mono (onProcessorStatus_sound sound promised) (fun _ _ => And.left) nofun
    | _ => contradiction

def State.Pending (state : State) : OpPromise → Prop
  | .semaphore name number => ∃ op, (state.semaphore name).Has op ∧ op.number = number
  | .request number => ∃ op ∈ state.requests [], op.number = number

theorem Sound.pending (held : promise ∈ state.promises) :
    state.Pending promise := by
  cases promise with
  | semaphore name number => exact ((sound.tracked.cells name).covered number).mp held
  | request number => exact sound.requested.held number held

end

/-- In every run the result of an operation is set at most once, an operation without a result
is still with the session, all have results when the session has stopped, and no assertion
fails. -/
theorem operations_complete_once {settings : Settings}
    (reached : Reachable react Promised { settings := settings } state) :
    (state.results.map Prod.fst).Nodup ∧
      (∀ promise ∈ state.results.map Prod.fst, promise ∈ state.given) ∧
      (∀ promise ∈ state.given, promise ∈ state.results.map Prod.fst ∨ state.Pending promise) ∧
      (state.phase = .stopped → ∀ promise ∈ state.given, promise ∈ state.results.map Prod.fst) ∧
      ∀ event, Promised state event → ∃ after, (react event).step state = .ok after := by
  have sound : Sound state :=
    reached.invariant sound_start fun _ _ sound promised => react_sound sound promised
  obtain ⟨distinct, _, settled⟩ := sound.accounted
  have whole := settled.nodup_iff.mp distinct
  refine ⟨(nodup_append.mp whole).1, fun promise member => ?_, fun promise member => ?_,
    fun stopped promise member => ?_, fun event promised => ?_⟩
  · exact settled.mem_iff.mpr (mem_append_left _ member)
  · rcases mem_append.mp (settled.mem_iff.mp member) with answered | held
    · exact .inl answered
    · exact .inr (sound.pending held)
  · rw [sound.final stopped, append_nil] at settled
    exact settled.mem_iff.mp member
  · cases taken : (react event).step state with
    | ok after => exact ⟨after, rfl⟩
    | error assertion => exact (wp_step_error (react_sound sound promised) taken).elim

/-- The connection is lost after an acquire was acknowledged and the next one sent; that one is
sent again and answered, and the session is closed with a release on its way. -/
def replayedRun : List Event :=
  [.start true, .connectRequest, .connect .success, .connected, .read (.sessionStarted 7),
    .acquireSemaphore "lock", .describeSemaphore true true true, .read (.acquireSemaphorePending 1),
    .acquireSemaphore "lock", .readFailed (.other 1), .processorStatus (.other 1) false, .ping,
    .reschedule, .sleepFinished, .connectRequest, .connect .success, .connected,
    .read (.sessionStarted 7), .read (.acquireSemaphoreResult 3 .success true),
    .releaseSemaphore "lock", .close false, .read .sessionStopped, .finish .success,
    .processorStatus .success false]

theorem operations_complete_after_replay :
    ∃ state, Reachable react Promised { settings := {} } state ∧ state.phase = .stopped ∧
      state.given.length = 5 ∧ (state.results.map Prod.fst).Nodup ∧
      ∀ promise ∈ state.given, promise ∈ state.results.map Prod.fst := by
  obtain ⟨state, reached, stopped, five⟩ : ∃ state, Reachable react Promised { settings := {} } state ∧
      state.phase = .stopped ∧ state.given.length = 5 :=
    exists_reachable replayedRun (by decide +kernel)
  obtain ⟨once, _, _, final, _⟩ := operations_complete_once reached
  exact ⟨state, reached, stopped, five, once, final stopped⟩

/-- On an attached session the last operation sent on a semaphore waits for its answer, and so
does the last acknowledged one unless a later one is restored first.  What else waits was
acknowledged on this connection, and no two that wait share a request id. -/
theorem last_operations_replayed {settings : Settings}
    (reached : Reachable react Promised { settings := settings } state) (name : String) :
    (∀ op, (state.semaphore name).lastSentOp = some op → state.link.Active → op ∈ state.waits name) ∧
    (∀ op, (state.semaphore name).lastAckedOp = some op → state.link.Active →
      (state.semaphore name).restoring = false → op ∈ state.waits name) ∧
    ∀ op ∈ state.waits name, ((state.semaphore name).lastSentOp = some op ∨
        (state.semaphore name).restoring = false ∧ op.reqId ∈ state.noticed) ∧
      ∀ other ∈ state.waits name, other.reqId = op.reqId → other = op := by
  have sound : Sound state :=
    reached.invariant sound_start fun _ _ sound promised => react_sound sound promised
  have unique := (sound.tracked.cells name).unique
  rcases sound.live.replayed name with replayed | ⟨empty, inactive⟩
  · refine ⟨fun op sent _ => replayed.sent op sent, fun op acked _ restored => replayed.backed restored op acked,
      fun op waits => ⟨?_, fun other also => unique other op (.inl also) (.inl waits)⟩⟩
    cases restoring : (state.semaphore name).restoring with
    | true => exact .inl (replayed.alone restoring op waits)
    | false => exact (replayed.noticed op waits).imp_right fun noticed => ⟨rfl, noticed⟩
  · exact ⟨fun _ _ active => absurd active inactive, fun _ _ active => absurd active inactive, by simp [empty]⟩

theorem last_operations_replayed_after_reattach :
    ∃ state, Reachable react Promised { settings := {} } state ∧
      (state.semaphore "lock").restoring ∧ (state.semaphore "lock").lastSentOp = some ⟨2, .acquire, 3⟩ := by
  obtain ⟨state, reached, restoring, waits⟩ : ∃ state, Reachable react Promised { settings := {} } state ∧
      (state.semaphore "lock").restoring ∧ ⟨2, .acquire, 3⟩ ∈ state.waits "lock" :=
    exists_reachable (replayedRun.take 18) (by decide +kernel)
  have sent := ((last_operations_replayed reached "lock").2.2 _ waits).1
  exact ⟨state, reached, restoring, by simpa [restoring] using sent⟩

end YdbSdk.Coordination
