import YdbSdk.Topic.Federated.Resending

namespace YdbSdk.Topic.Federated.WriteSession

open YdbSdk.Control YdbSdk.Data Code List

/-! # Tokens of the federated write session

A token is with a thread that has still to push it, in the events queue, or with the user.
-/

def pushes (threads : List (List Work)) : Nat :=
  (threads.map fun works => works.count .pushToken).sum

def State.tokens (state : State) : Nat :=
  pushes state.threads + state.events.count .readyToAccept + state.tokensHeld

/-- There is at most one token, and none unless `ClientHasToken` is set. -/
def Single (state : State) : Prop := state.tokens ≤ state.clientHasToken.toNat

def State.tokenView (state : State) : Nat × Bool := (state.tokens, state.clientHasToken)

variable {settings : Settings} {state : State}

theorem goOn_tokens (tokenless : works.count .pushToken = 0) :
    (goOn works).Follows (.fixed State.tokenView) := by
  intro state
  simp [goOn, Code.Motion.fixed, State.tokenView, State.tokens, pushes,
    tokenless]

theorem maybeWriteImpl_tokens : maybeWriteImpl.Follows (.fixed State.tokenView) := by
  apply Code.Follows.bind .get
  intro state
  split
  · apply Code.Follows.bind (.update fun _ => rfl)
    intro _
    apply Code.Follows.bind
    · apply Code.Follows.bind .get
      intro state
      split
      · exact .stop _
      · exact .stop _
      · split
        · exact .stop _
        · exact .update fun _ => rfl
    · exact fun _ => .update fun _ => rfl
  · exact .pure ()

theorem closeImpl_tokens : closeImpl.Follows (.fixed State.tokenView) :=
  .bind .get fun _ => .ite _ (fun _ => .pure ()) fun _ =>
    .bind (.update fun _ => rfl) fun _ => goOn_tokens rfl

theorem close_tokens : close.Follows (.fixed State.tokenView) :=
  .bind .get fun _ => .ite _ (fun _ => .pure ()) fun _ =>
    .bind (.update fun _ => rfl) fun _ => goOn_tokens rfl

theorem flush_tokens : flush.Follows (.fixed State.tokenView) :=
  .bind .get fun _ => .ite _ (fun _ => .update fun _ => rfl) fun _ =>
    .ite _ (fun _ => .update fun _ => rfl) fun _ =>
      .ite _ (fun _ => .update fun _ => rfl) fun _ => .update fun _ => rfl

theorem scheduleFederationStateUpdateImpl_tokens (hasContext : Bool) :
    (scheduleFederationStateUpdateImpl hasContext).Follows (.fixed State.tokenView) :=
  .ite _ (fun _ => .update fun _ => rfl) fun _ => closeImpl_tokens

theorem updateFederationState_tokens (federationState : FederatedDbState) (hasContext : Bool) :
    (updateFederationState settings federationState hasContext).Follows
      (.fixed State.tokenView) := by
  apply Code.Follows.bind (.update fun _ => rfl)
  intro _
  refine .bind .get fun _ => .ite _ (fun _ => .pure ()) fun _ => .ite _ (fun _ => ?_)
    fun _ => closeImpl_tokens
  refine .bind (.require _ _) fun _ => ?_
  split
  · exact .bind (.read _) fun _ => .bind (.update fun _ => rfl) fun _ => .ite _
      (fun _ => scheduleFederationStateUpdateImpl_tokens hasContext) fun _ => closeImpl_tokens
  · exact .stop _
  · exact .bind (.update fun _ => rfl) fun _ => .bind .get fun _ =>
      .bind (.when fun _ => .update fun _ => rfl) fun _ =>
        scheduleFederationStateUpdateImpl_tokens hasContext

theorem popAcknowledged_tokens : popAcknowledged.Follows (.fixed State.tokenView) := by
  apply Code.Follows.bind .get
  intro state
  split
  · exact .stop _
  · exact .update fun _ => rfl

theorem acksHandler_tokens (index count : Nat) :
    (acksHandler index count).Follows (.fixed State.tokenView) :=
  .bind .get fun _ => .when fun _ => .bind (.require _ _) fun _ =>
    .bind (.forEach fun _ _ => popAcknowledged_tokens) fun _ =>
      .bind (.update fun _ => rfl) fun _ => goOn_tokens rfl

theorem readyToAcceptHandler_tokens (index : Nat) :
    (readyToAcceptHandler index).Follows (.fixed State.tokenView) :=
  .bind .get fun _ => .when fun _ => .bind (.require _ _) fun _ =>
    .bind (.update fun _ => rfl) fun _ => maybeWriteImpl_tokens

theorem startSession_tokens : startSession.Follows (.fixed State.tokenView) :=
  .bind .get fun _ => .ite _
    (fun _ => .bind (.update fun _ => rfl) fun _ => goOn_tokens rfl) (fun _ => .pure ())

theorem single_of_tokens {code : Writer Unit} (follows : code.Follows (.fixed State.tokenView))
    (single : Single state) : code.wp (.keeping Single) state := by
  refine wp_mono (follows state) (fun _ after same => ?_) nofun
  have tokens : after.tokens = state.tokens := congrArg Prod.fst same
  have has : after.clientHasToken = state.clientHasToken := congrArg Prod.snd same
  change after.tokens ≤ after.clientHasToken.toNat
  rw [tokens, has]
  exact single

theorem write_single
    (single : Single state) (held : 0 < state.tokensHeld) :
    (react settings (.write data message now)).wp (.keeping Single) state := by
  have atMost : state.tokens ≤ 1 := single.trans (Bool.toNat_le _)
  simp only [react, writeInternal, wp_rules]
  refine wp_imp (single_of_tokens maybeWriteImpl_tokens ?_)
    (fun _ after kept => single_of_tokens (goOn_tokens rfl) kept)
  simp only [Single, State.tokens] at atMost ⊢
  omega

theorem getEvent_single (single : Single state) : getEvent.wp (.keeping Single) state := by
  rw [getEvent, wp_update]
  simp only [Single, State.tokens] at single ⊢
  cases events : state.events with
  | nil => simpa [events] using single
  | cons event rest =>
    cases event with
    | readyToAccept =>
      simp only [events, count_cons_self] at single ⊢
      omega
    | acks count => simpa [events] using single

theorem pushAcks_tokens (count : Nat) : (pushEvent (.acks count)).Follows (.fixed State.tokenView) :=
  .bind .get fun _ => .when fun _ => .update fun state => by
    simp [Code.Motion.fixed, State.tokenView, State.tokens]

theorem perform_single {work : Work}
    (single : state.tokens + [work].count .pushToken ≤ state.clientHasToken.toNat) :
    (perform work).wp ⟨fun next after =>
      after.tokens + next.count .pushToken ≤ after.clientHasToken.toNat, nofun, fun _ => True⟩
      state := by
  have quiet : ∀ {code : Writer Unit}, code.Follows (.fixed State.tokenView) →
      state.tokens ≤ state.clientHasToken.toNat →
      (code >>= fun _ => pure []).wp ⟨fun next after =>
        after.tokens + next.count Work.pushToken ≤ after.clientHasToken.toNat, nofun, fun _ => True⟩
        state := by
    intro code follows single
    rw [wp_bind]
    exact wp_mono (single_of_tokens follows single) (fun _ _ => id) nofun
  cases work with
  | issueTokenIfAllowed =>
    simp only [perform, issueTokenIfAllowed, wp_rules]
    refine ⟨fun allowed => ?_, fun _ => by simpa using single⟩
    rw [allowed.2.1] at single
    simpa [State.tokens] using single
  | pushToken =>
    simp only [perform, pushEvent, wp_rules]
    refine ⟨fun _ => ?_, fun _ => ?_⟩
    · simp only [State.tokens, count_append, count_singleton_self, count_nil]
        at single ⊢
      omega
    · exact (Nat.le_add_right _ _).trans single
  | pushAcks count => exact quiet (pushAcks_tokens count) single
  | closeQueue => exact quiet (.update fun _ => rfl) single
  | subscribe => exact quiet (.update fun _ => rfl) single
  | finishClose => exact quiet closeImpl_tokens single

theorem pushes_tail
    (found : threads[thread]? = some (work :: rest)) :
    pushes (threads.modify thread .tail) + [work].count .pushToken = pushes threads := by
  have same := sum_map_modify (fun works : List Work => works.count .pushToken) .tail found
  simp only [tail_cons, count_cons, count_nil] at same ⊢
  simp only [pushes]
  omega

theorem pushes_next (threads : List (List Work)) (thread : Nat) (next : List Work) :
    pushes (threads.modify thread (next ++ ·)) ≤ pushes threads + next.count .pushToken := by
  cases found : threads[thread]? with
  | none => simp [modify_eq_set_getElem?, found]
  | some works =>
    have same := sum_map_modify (fun works : List Work => works.count .pushToken) (next ++ ·) found
    simp only [count_append] at same
    simp only [pushes]
    omega

theorem resume_single {thread : Nat} (single : Single state) :
    (resume thread).wp (.keeping Single) state := by
  simp only [resume, wp_rules]
  split
  · rename_i work rest found
    simp only [wp_rules]
    refine wp_mono (perform_single ?_) (fun next after kept => ?_) (by simp)
    · have fewer := pushes_tail found
      simp only [Single, State.tokens] at single ⊢
      omega
    · have more := pushes_next after.threads thread next
      simp only [Single, State.tokens] at kept ⊢
      omega
  · exact single

theorem react_single (single : Single state) (allowed : Permitted state event) :
    (react settings event).wp (.keeping Single) state := by
  cases event with
  | start => exact single_of_tokens startSession_tokens single
  | write data message now => exact write_single single allowed
  | flush => exact single_of_tokens flush_tokens single
  | close => exact single_of_tokens close_tokens single
  | getEvent => exact getEvent_single single
  | updateFederationState federationState hasContext =>
    exact single_of_tokens (updateFederationState_tokens federationState hasContext) single
  | readyToAccept index =>
    exact single_of_tokens
      (.bind (.update fun _ => rfl) fun _ => readyToAcceptHandler_tokens index) single
  | acks index count =>
    exact single_of_tokens
      (.bind (.update fun _ => rfl) fun _ => acksHandler_tokens index count) single
  | sessionClosed index isSuccess =>
    exact single_of_tokens (.bind .get fun _ => .when fun _ => closeImpl_tokens) single
  | resume thread => exact resume_single single

/-- The queues hold the accepted messages that are not acknowledged, in their order and with
payloads that their views show.  Each subsession received the accepted messages one after
the other, from the first that was not acknowledged when it was opened, and the current one
has received all but those still to be passed down. -/
structure Orderly (settings : Settings) (state : State) : Prop where
  queued : (state.toGetAck ++ state.toPassDown).map WrappedWriteMessage.content =
    state.accepted.drop state.acknowledged
  shown : ∀ message ∈ state.toGetAck ++ state.toPassDown,
    state.bytes message.message.data = some message.data
  received : ∀ subsession ∈ state.subsessions,
    subsession.received <+: state.accepted.drop subsession.opened
  current : ∀ former last, state.subsessions = former ++ [last] →
    state.subsession = some former.length ∧
      last.received ++ state.toPassDown.map WrappedWriteMessage.content =
        state.accepted.drop last.opened
  space : state.bufferFreeSpace =
    i64 (settings.maxMemoryUsage - totalSize (state.toGetAck ++ state.toPassDown))
  single : state.tokens ≤ 1

theorem Sound.orderly (sound : Sound settings 0 state) (single : Single state) :
    Orderly settings state where
  queued := by rw [map_append]; exact sound.faithful.unacknowledged
  shown message member := sound.stored.bytes member
  received subsession member := sound.faithful.runs subsession.link (mem_map_of_mem member)
  current former last opened := by
    refine ⟨(sound.current former last opened).1, ?_⟩
    have linked : state.outbox.links = former.map Subsession.link ++ [last.link] := by
      simp [State.outbox, opened]
    exact sound.faithful.line linked
  space := sound.space
  single := single.trans (Bool.toNat_le _)

theorem i64_eq (low : -2 ^ 63 ≤ value) (high : value < 2 ^ 63) : i64 value = value := by
  apply Int.bmod_eq_of_le <;> omega

theorem react_kept {event : Event} (kept : Sound settings 0 state ∧ Single state)
    (allowed : Permitted state event) :
    (react settings event).wp (.keeping (fun after => Sound settings 0 after ∧ Single after)
      Assertion.ofFederation) state :=
  wp_mono_stops (wp_and (react_sound kept.1 allowed) (react_single kept.2 allowed))
    (fun _ _ => id) nofun (fun _ => And.left)

/-- In every state that the session reaches the messages are in order, and no handler of a
subsession fails an assertion. -/
theorem federated_messages_in_order
    (reached : Reachable (react settings) Permitted (start settings) state) :
    Orderly settings state ∧
      (settings.maxMemoryUsage - totalSize (state.toGetAck ++ state.toPassDown) < (2 ^ 63 : Int) →
        -2 ^ 63 ≤ (settings.maxMemoryUsage - totalSize (state.toGetAck ++ state.toPassDown) : Int) →
        state.bufferFreeSpace =
          settings.maxMemoryUsage - totalSize (state.toGetAck ++ state.toPassDown)) ∧
      ∀ event assertion, Permitted state event →
        (react settings event).step state = .error assertion → assertion.ofFederation := by
  have initially : Sound settings 0 (start settings) ∧ Single (start settings) :=
    ⟨sound_start, Nat.zero_le _⟩
  have kept := fun before event => @react_kept settings before event
  obtain ⟨sound, single⟩ := reached.invariant initially kept
  refine ⟨sound.orderly single, ?_, ?_⟩
  · intro high low
    rw [sound.space, i64_eq low high]
  · intro event assertion allowed failed
    exact reached.stops_only initially kept allowed failed

/-- Two messages are accepted; the second database is chosen while the first message is not
acknowledged, so the new subsession gets both. -/
def switchedRun : List Event :=
  let here : DbInfo := { name := ['a'], location := ['x'], weight := 1 }
  let there : DbInfo := { name := ['b'], location := ['x'], weight := 1 }
  [.start, .resume 0, .resume 0, .resume 0, .getEvent,
    .updateFederationState { selfLocation := ['x'], dbInfos := [here] } true,
    .readyToAccept 0, .write [1, 2] { data := ⟨0, 0⟩ } 7, .resume 1, .resume 1, .getEvent,
    .write [3] { data := ⟨0, 0⟩ } 8,
    .updateFederationState { selfLocation := ['x'], dbInfos := [there] } true,
    .acks 0 1, .readyToAccept 1, .readyToAccept 1, .acks 1 1]

theorem federated_messages_in_order_switched :
    ∃ state, Reachable (react { maxMemoryUsage := 10 }) Permitted (start { maxMemoryUsage := 10 })
        state ∧ state.subsessions.length = 2 ∧ state.acknowledged = 1 ∧
      Orderly { maxMemoryUsage := 10 } state := by
  obtain ⟨state, reached, two, one⟩ : ∃ state, Reachable (react { maxMemoryUsage := 10 }) Permitted
      (start { maxMemoryUsage := 10 }) state ∧ state.subsessions.length = 2 ∧ state.acknowledged = 1 :=
    exists_reachable switchedRun (by decide +kernel)
  exact ⟨state, reached, two, one, (federated_messages_in_order reached).1⟩

end YdbSdk.Topic.Federated.WriteSession
