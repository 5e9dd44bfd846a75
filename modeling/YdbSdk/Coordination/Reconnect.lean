import YdbSdk.Coordination.Completion

namespace YdbSdk.Coordination

open YdbSdk.Control YdbSdk.Data List

/-! # The futures of `Reconnect` and `Close`

`Reconnect` makes a promise that the next connection sets.  When the session stops while
that promise waits, `OnProcessorStatus` takes it out and drops it.
-/

structure Futures (state : State) : Prop where
  distinct : state.reconnects.Nodup
  bounded : ∀ number ∈ state.reconnects, number < state.nextNumber
  settled : state.reconnects.Perm (state.reconnected ++ state.reconnectPromise.toList)
  final : state.phase = .stopped → state.reconnectPromise = none

variable {state after : State}

theorem Futures.move (futures : Futures state) (same : after.futures = state.futures)
    (grown : state.nextNumber ≤ after.nextNumber)
    (final : after.phase = .stopped → state.reconnectPromise = none) : Futures after := by
  simp only [State.futures, Prod.mk.injEq] at same
  obtain ⟨reconnects, reconnected, promise⟩ := same
  constructor
  · rw [reconnects]
    exact futures.distinct
  · intro number member
    rw [reconnects] at member
    exact Nat.lt_of_lt_of_le (futures.bounded number member) grown
  · rw [reconnects, reconnected, promise]
    exact futures.settled
  · rw [promise]
    exact final

theorem Futures.fresh (futures : Futures state) : state.nextNumber ∉ state.reconnects := by
  intro member
  exact Nat.lt_irrefl _ (futures.bounded _ member)

theorem Futures.add (futures : Futures state) :
    (state.reconnects ++ [state.nextNumber]).Nodup ∧
      ∀ number ∈ state.reconnects ++ [state.nextNumber], number < state.nextNumber + 1 := by
  constructor
  · rw [nodup_append]
    refine ⟨futures.distinct, by simp, fun number member other single => ?_⟩
    rw [mem_singleton.mp single]
    intro same
    exact futures.fresh (same ▸ member)
  · intro number member
    rcases mem_append.mp member with old | new
    · exact Nat.lt_succ_of_lt (futures.bounded number old)
    · rw [mem_singleton.mp new]
      exact Nat.lt_succ_self _

theorem doReconnect_futures (sound : Sound state) (futures : Futures state) :
    doReconnect.wp (.keeping Futures) state := by
  simp only [doReconnect, Code.wp_rules]
  refine ⟨fun _ => ⟨futures.add.1, futures.add.2, ?_, futures.final⟩,
    fun isOpen => ⟨fun noPromise => ⟨futures.add.1, futures.add.2, ?_, fun stopped => ?_⟩,
      fun _ => futures⟩⟩
  · -- The promise that waits stays behind the one set at once.
    have settled := futures.settled.append_right [state.nextNumber]
    refine settled.trans ?_
    simp only [append_assoc]
    exact .append_left _ perm_append_comm
  · have settled := futures.settled.append_right [state.nextNumber]
    rw [Option.isNone_iff_eq_none.mp noPromise] at settled
    simpa using settled
  · exact absurd (sound.closed stopped) isOpen

theorem onConnected_futures (futures : Futures state) :
    onConnected.wp (.keeping Futures) state := by
  have settled : state.reconnects.Perm ((state.reconnected ++ state.reconnectPromise.toList) ++ []) := by
    simpa using futures.settled
  simp only [onConnected, Code.wp_rules]
  exact ⟨fun _ => ⟨fun _ => ⟨futures.distinct, futures.bounded, settled, by simp⟩, fun _ => trivial⟩,
    fun _ => ⟨futures.distinct, futures.bounded, settled, by simp⟩⟩

/-- No promise of `Reconnect` waits when the end of a connection stops the session. -/
def NoneDropped (state : State) : Event → Prop
  | .processorStatus _ deadlinePassed =>
    state.stops deadlinePassed = true → state.reconnectPromise = none
  | _ => True

instance (state : State) : (event : Event) → Decidable (NoneDropped state event) := by
  rintro ⟨⟩ <;> dsimp only [NoneDropped] <;> infer_instance

def Served (state : State) (event : Event) : Prop :=
  Promised state event ∧ NoneDropped state event

instance (state : State) (event : Event) : Decidable (Served state event) :=
  inferInstanceAs (Decidable (_ ∧ _))

theorem react_futures {event : Event} (sound : Sound state) (futures : Futures state)
    (served : Served state event) : (react event).wp (.keeping Futures) state := by
  cases settles : event.settles with
  | false =>
    refine Code.wp_mono (react_stays sound served.1 settles) (fun _ after stays => ?_) nofun
    exact futures.move stays.futures stays.grown fun stopped => futures.final (stays.running stopped)
  | true =>
    cases event with
    | reconnect => exact doReconnect_futures sound futures
    | connected => exact onConnected_futures futures
    | processorStatus status deadlinePassed =>
      refine Code.wp_mono (onProcessorStatus_sound sound served.1) (fun _ after met => ?_) nofun
      obtain ⟨_, grown, ⟨same, running⟩ | ⟨stops, dropped⟩⟩ := met
      · exact futures.move same grown fun stopped => absurd stopped running
      · have none := served.2 stops
        exact futures.move (dropped.trans (by rw [State.futures, none])) grown fun _ => none
    | _ => contradiction

/-- In a run in which the end of a connection never stops the session while a promise of
`Reconnect` waits, every future of `Reconnect` and of `Close` is completed once at most, and
when the session has stopped all of them are. -/
theorem futures_complete_when_stopped {settings : Settings}
    (reached : Reachable react Served { settings := settings } state) :
    state.reconnected.Nodup ∧ (∀ number ∈ state.reconnected, number ∈ state.reconnects) ∧
      state.closed.length ≤ 1 ∧
      (state.phase = .stopped →
        state.reconnected.Perm state.reconnects ∧ state.closed.length = 1) := by
  obtain ⟨sound, futures⟩ : Sound state ∧ Futures state := by
    refine @Reachable.invariant _ _ _ _ react Served { settings := settings } state
      (fun state => Sound state ∧ Futures state) (fun _ => True) reached
      ⟨sound_start, ⟨by simp, by simp, by simp, fun _ => rfl⟩⟩ ?_
    intro before event holds served
    exact Code.wp_mono_stops (Code.wp_and (react_sound holds.1 served.1)
      (react_futures holds.1 holds.2 served)) (fun _ _ => id) nofun (fun _ _ => trivial)
  have whole := futures.settled.nodup_iff.mp futures.distinct
  have closed : state.closed.length = if state.phase = .stopped then 1 else 0 := sound.linked.closed
  refine ⟨(nodup_append.mp whole).1, fun number member => ?_, ?_, fun stopped => ?_⟩
  · exact futures.settled.mem_iff.mpr (mem_append_left _ member)
  · rw [closed]
    split <;> simp
  · have settled := futures.settled
    rw [futures.final stopped] at settled
    exact ⟨by simpa using settled.symm, by simpa [stopped] using closed⟩

def reconnectedRun : List Event :=
  [.start true, .connectRequest, .connect .success, .connected, .read (.sessionStarted 7),
    .reconnect, .readFailed (.other 1), .processorStatus (.other 1) false, .reschedule,
    .sleepFinished, .connectRequest, .connect .success, .connected, .read (.sessionStarted 7),
    .close false, .read .sessionStopped, .finish .success, .processorStatus .success false, .reconnect]

theorem futures_complete_after_reconnect :
    ∃ state, Reachable react Served { settings := {} } state ∧ state.phase = .stopped ∧
      state.reconnects.length = 2 ∧ state.reconnected.Perm state.reconnects ∧
      state.closed.length = 1 := by
  obtain ⟨state, reached, stopped, two⟩ : ∃ state, Reachable react Served { settings := {} } state ∧
      state.phase = .stopped ∧ state.reconnects.length = 2 :=
    exists_reachable reconnectedRun (by decide +kernel)
  obtain ⟨_, _, _, final⟩ := futures_complete_when_stopped reached
  exact ⟨state, reached, stopped, two, final stopped⟩

/-- The session is closed by force while `Reconnect` waits for a connection. -/
def droppedRun : List Event :=
  [.start true, .connectRequest, .connect .success, .connected, .read (.sessionStarted 7),
    .reconnect, .readFailed (.other 1), .processorStatus (.other 1) false, .reschedule,
    .close true, .sleepFinished, .processorStatus .clientInternalError false]

/-- The future of that `Reconnect` is never completed: the session has stopped. -/
theorem stop_drops_reconnect_promise :
    ∃ state, Reachable react Promised {} state ∧ state.phase = .stopped ∧
      state.reconnectPromise = none ∧ ∃ number ∈ state.reconnects, number ∉ state.reconnected :=
  exists_reachable droppedRun (by decide +kernel)

end YdbSdk.Coordination
