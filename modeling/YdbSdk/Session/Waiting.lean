import YdbSdk.Session.Limit

namespace YdbSdk.Session

open YdbSdk.Control List

/-! # Waiting requests

A request waits only while the counter is at the limit, as long as no request queues up
while a delete call is between its two sections or after the pool was closed.
-/

variable {state : State}

def State.Undecreased (state : State) : Prop :=
  ∀ holder ∈ state.holders, holder.phase ≠ .decrementing

/-- A request finds room, or queues up in an open pool while no delete call is about to
lower the counter. -/
def QueuesInTime (settings : Settings) (state : State) : Event → Prop
  | .getSession _ => settings.HasRoom state ∨ (state.closed = false ∧ state.Undecreased)
  | _ => True

structure Waits (settings : Settings) (state : State) : Prop where
  full : settings.maxActiveSessions ≤ state.activeSessions
  isOpen : state.closed = false
  undecreased : state.Undecreased

theorem Undecreased.moves {after : State} (undecreased : state.Undecreased)
    (moved : Moves settings state event gone come after)
    (others : ∀ holder, .held holder ∈ come → holder.phase ≠ .decrementing) :
    after.Undecreased := by
  obtain ⟨rest, old, new⟩ := moved.shift
  intro holder there
  have spot : .held holder ∈ after.spots := mem_append_right _ (mem_map_of_mem there)
  rcases mem_append.mp (new.mem_iff.mp spot) with comes | stays
  · exact others holder comes
  · have before := old.mem_iff.mpr (mem_append_right gone stays)
    simp only [spots, mem_append, mem_map, Place.held.injEq, exists_eq_right,
      reduceCtorEq, and_false, exists_false, false_or] at before
    exact undecreased holder before

theorem waits_moves {after : State}
    (sound : Sound state) (waits : state.waiters ≠ [] → Waits settings state)
    (permitted : QueuesInTime settings state event)
    (moved : Moves settings state event gone come after) :
    after.waiters ≠ [] → Waits settings after := by
  intro waiting
  have stays (before : state.waiters ≠ []) (full : state.activeSessions ≤ after.activeSessions)
      (isOpen : state.closed = false → after.closed = false)
      (others : ∀ holder, .held holder ∈ come → holder.phase ≠ .decrementing) :
      Waits settings after :=
    ⟨(waits before).full.trans full, isOpen (waits before).isOpen,
      Undecreased.moves (waits before).undecreased moved others⟩
  cases moved with
  | stay => exact waits waiting
  | hit room sessions => exact stays waiting (Nat.le_succ _) id (by simp)
  | miss room sessions => exact stays waiting (Nat.le_succ _) id (by simp)
  | queue full =>
    cases permitted with
    | inl room => exact absurd room full
    | inr inTime =>
      simp only [Settings.HasRoom, not_or, Nat.not_lt] at full
      exact ⟨full.2, inTime.1, inTime.2⟩
  | refuse full => exact stays waiting le_rfl id (by simp)
  | allocates fresh fits phase counted =>
    refine stays waiting le_rfl id fun holder member => ?_
    cases mem_singleton.mp member
    rcases phase with user | deleting
    · simp [user]
    · simp [deleting]
  | goes found turn =>
    refine stays waiting le_rfl id fun holder member => ?_
    cases mem_singleton.mp member
    exact fun now =>
      (waits waiting).undecreased _ (mem_of_getElem? found) (turn.object.2.2 now)
  | shutPooled found => exact stays waiting le_rfl id (by simp)
  | leaves other sessions leave rest closes server dropped =>
    have same := closes.resolve_right waiting
    refine stays (fun none => ?_) le_rfl same.trans fun holder member => ?_
    · rw [none, suffix_nil] at rest
      exact waiting rest
    · obtain ⟨⟨session, given⟩, there, here⟩ := mem_map.mp member
      cases here
      have left : Leaves session given := leave _ there
      cases left <;> simp
  | returnFeeds found isOpen returns waiters =>
    refine stays (by simp [waiters]) ?_ id (by simp)
    dsimp only
    split <;> omega
  | returnPools found returns waiters enters => exact absurd waiters waiting
  | deleteFeeds found waiters => exact stays (by simp [waiters]) le_rfl id (by simp)
  | deleteCounted found counted unfed =>
    -- A waiting request would have been fed.
    rcases unfed with foreign | closed | none
    · have uncounted := (sound.fits_at found).2 foreign
      rw [counted] at uncounted
      cases uncounted
    · rw [(waits waiting).isOpen] at closed
      cases closed
    · exact absurd none waiting
  | deleteUncounted found uncounted => exact stays waiting le_rfl id (by simp)
  | finish found =>
    exact absurd rfl ((waits waiting).undecreased _ (mem_of_getElem? found))

/-- In every run in which requests queue up in time, a request waits only if the active
counter has reached the limit. -/
theorem waiter_only_at_limit {settings : Settings} {state : State}
    (reached : Reaches settings (QueuesInTime settings) state) (waiting : state.waiters ≠ []) :
    settings.maxActiveSessions ≤ state.activeSessions := by
  have invariant : Sound state ∧ (state.waiters ≠ [] → Waits settings state) := by
    apply Reaches.invariant reached
    · exact ⟨⟨by simp [spots], rfl⟩, fun some => absurd rfl some⟩
    · exact fun _ _ _ _ _ invariant permitted moved =>
        ⟨invariant.1.moves moved, waits_moves invariant.1 invariant.2 permitted moved⟩
  exact (invariant.2 waiting).full

instance (settings : Settings) (state : State) :
    (event : Event) → Decidable (QueuesInTime settings state event) := by
  rintro ⟨⟩ <;> dsimp only [QueuesInTime, Settings.HasRoom, State.Undecreased] <;> infer_instance

/-- One session is in use and a request waits for it. -/
theorem waiter_only_at_limit_of_two_requests :
    ∃ state : State, state.waiters = [20] ∧ oneSession.maxActiveSessions ≤ state.activeSessions := by
  obtain ⟨state, reached, waits⟩ : ∃ state, Reaches oneSession (QueuesInTime oneSession) state ∧
      state.waiters = [20] :=
    exists_reachable [.getSession 0, .created (some 7) false 0, .getSession 20] (by decide +kernel)
  exact ⟨state, waits, waiter_only_at_limit reached (by simp [waits])⟩

/-- A delete call finds no waiting request; one queues up before the call lowers the
counter, and nobody feeds it. -/
theorem forgotten_waiter :
    ∃ state, Reaches oneSession (fun _ _ => True) state ∧ state.Quiescent ∧
      state.waiters ≠ [] ∧ state.activeSessions < oneSession.maxActiveSessions :=
  exists_reachable [.getSession 0, .created (some 7) false 0, .markBroken 0, .release 0 false,
    .deleteSession 0, .getSession 20, .finishDeleteSession 0] (by unfold State.Quiescent; decide +kernel)

end YdbSdk.Session
