import YdbSdk.Session.Limit

namespace YdbSdk.Session

open YdbSdk.Control List

/-! # Where the sessions are

Every session object is in one place: in the pool or with one holder.  The one step that
loses a session is a request at the limit that finds a session in the pool: it takes the
session out and does not use it.
-/

variable {settings : Settings} {state after : State} {event : Event} {gone come : List Place}

def KqpSession.isAt (pointer : Nat) (session : KqpSession) : Bool := session.pointer = pointer

def Holder.isAt (pointer : Nat) (holder : Holder) : Bool := holder.session.isAt pointer

def State.ClosedOnServer (state : State) (session : KqpSession) : Prop :=
  ∃ id, session.id = some id ∧ id ∈ state.closedOnServer

def Place.pointer (place : Place) : Nat := place.session.pointer

/-- A session that was destroyed is among those closed on the server. -/
def Place.Closed (closedOnServer : List Nat) : Place → Prop
  | .pooled _ => True
  | .held holder => holder.phase = .deleted →
      ∀ id, holder.session.id = some id → id ∈ closedOnServer

structure Placed (state : State) : Prop where
  once : (state.spots.map Place.pointer).Perm (.range state.allocated)
  pooled : ∀ pointer ∈ state.pooled, pointer < state.allocated
  named : ∀ place ∈ state.spots, place.pointer ∈ state.pooled → place.session.id.isSome = true
  closed : ∀ place ∈ state.spots, place.Closed state.closedOnServer

/-- The request does not find the counter at the limit and a session in the pool. -/
def SparesPool (settings : Settings) (state : State) : Event → Prop
  | .getSession _ => settings.HasRoom state ∨ state.sessions = []
  | _ => True

structure Traced (state after : State) (gone come : List Place) : Prop where
  objects : (come.map Place.pointer ++ .range state.allocated).Perm
    (gone.map Place.pointer ++ .range after.allocated)
  allocated : state.allocated ≤ after.allocated
  same : ∀ new ∈ come, new.pointer = state.allocated ∨
    ∃ old ∈ gone, new.pointer = old.pointer ∧ new.session.id = old.session.id
  pooled : after.pooled = state.pooled ∨
    ∃ session, come = [.pooled session] ∧ after.pooled = state.pooled ++ [session.pointer]
  server : state.closedOnServer ⊆ after.closedOnServer
  closed : (∀ old ∈ gone, old.Closed state.closedOnServer) →
    ∀ new ∈ come, new.Closed after.closedOnServer

theorem Traced.replace (same : old.session.SameObject new.session)
    (allocated : after.allocated = state.allocated) (pooled : after.pooled = state.pooled ∨
      ∃ session, [new] = [.pooled session] ∧ after.pooled = state.pooled ++ [session.pointer])
    (server : state.closedOnServer ⊆ after.closedOnServer)
    (closed : old.Closed state.closedOnServer → new.Closed after.closedOnServer) :
    Traced state after [old] [new] where
  objects := by
    rw [allocated, map_singleton, Place.pointer, same.1]
    exact .refl _
  allocated := allocated.ge
  same := forall_mem_singleton.mpr (.inr ⟨old, mem_singleton.mpr rfl, same.1, same.2.1⟩)
  pooled := pooled
  server := server
  closed := fun before => forall_mem_singleton.mpr
    (closed (before old (mem_singleton.mpr rfl)))

theorem Leaves.object (leaves : Leaves session holder) :
    session.SameObject holder.session := by
  cases leaves <;> exact ⟨rfl, rfl, rfl⟩

theorem Moves.traced (moved : Moves settings state event gone come after)
    (spared : SparesPool settings state event) : Traced state after gone come := by
  have destroyed {session : KqpSession} : Place.Closed (state.closedOnServer ++ session.id.toList)
      (.held ⟨.deleted, session⟩) :=
    fun _ id known => mem_append_right _ (Option.mem_toList.mpr known)
  have unchanged {after : State} (allocated : after.allocated = state.allocated)
      (pooled : after.pooled = state.pooled)
      (server : after.closedOnServer = state.closedOnServer) : Traced state after [] [] :=
    ⟨by rw [allocated], allocated.ge, by simp, .inl pooled, by rw [server]; exact fun _ => id, by simp⟩
  have unused (full : ¬ settings.HasRoom state) (spares : settings.HasRoom state ∨ state.sessions = []) :
      state.sessions = [] := spares.resolve_left full
  cases moved with
  | stay => exact unchanged rfl rfl rfl
  | hit room sessions => exact .replace ⟨rfl, rfl, rfl⟩ rfl (.inl rfl) (fun _ => id) (fun _ => nofun)
  | miss room sessions => exact unchanged rfl rfl rfl
  | queue full =>
    rw [unused full spared]
    exact unchanged rfl rfl rfl
  | refuse full =>
    rw [unused full spared]
    exact unchanged rfl rfl rfl
  | allocates fresh fits phase counted =>
    refine ⟨?_, Nat.le_succ _, forall_mem_singleton.mpr (.inl fresh), .inl rfl, fun _ => id, fun _ => ?_⟩
    · rw [range_succ, map_singleton, Place.pointer,
        Place.session, fresh]
      exact perm_append_comm
    · refine forall_mem_singleton.mpr fun deleted => ?_
      rcases phase with user | deleting
      · rw [user] at deleted; cases deleted
      · rw [deleting] at deleted; cases deleted
  | goes found turn =>
    exact .replace turn.object.1 rfl (.inl rfl) (fun _ => id) fun before deleted id known =>
      before (turn.object.2.1 deleted) id (turn.object.1.2.1 ▸ known)
  | shutPooled found =>
    exact .replace (KqpSession.markAsClosing_sameObject _) rfl (.inl rfl) (fun _ => id) id
  | leaves other sessions leave rest closes server dropped =>
    have pointers := fun pair member => (leave pair member).object
    refine ⟨.of_eq ?_, le_rfl, forall_mem_map.mpr fun pair member => .inr ⟨_,
      mem_map_of_mem member, (pointers pair member).1, (pointers pair member).2.1⟩, .inl rfl,
      server, fun _ => forall_mem_map.mpr dropped⟩
    rw [map_map, map_map]
    exact congrArg (· ++ _) (map_congr_left fun pair member => (pointers pair member).1)
  | returnFeeds found isOpen returns waiters =>
    exact .replace ⟨rfl, rfl, rfl⟩ rfl (.inl rfl) (fun _ => id) (fun _ => nofun)
  | returnPools found returns waiters enters =>
    subst enters
    exact .replace ⟨rfl, rfl, rfl⟩ rfl (.inr ⟨_, rfl, rfl⟩) (fun _ => id) (fun _ => trivial)
  | deleteFeeds found waiters =>
    exact .replace ⟨rfl, rfl, rfl⟩ rfl (.inl rfl) (subset_append_left _ _) (fun _ => destroyed)
  | deleteCounted found counted unfed =>
    exact .replace ⟨rfl, rfl, rfl⟩ rfl (.inl rfl) (fun _ => id) (fun _ => nofun)
  | deleteUncounted found uncounted =>
    exact .replace ⟨rfl, rfl, rfl⟩ rfl (.inl rfl) (subset_append_left _ _) (fun _ => destroyed)
  | finish found =>
    exact .replace ⟨rfl, rfl, rfl⟩ rfl (.inl rfl) (subset_append_left _ _) (fun _ => destroyed)

theorem Place.Closed.mono {place : Place} (closed : place.Closed before)
    (more : before ⊆ now) : place.Closed now := by
  cases place with
  | pooled session => trivial
  | held holder => exact fun deleted id known => more (closed deleted id known)

theorem Placed.moves (placed : Placed state) (sound : Sound state)
    (spared : SparesPool settings state event) (moved : Moves settings state event gone come after) :
    Placed after := by
  obtain ⟨rest, old, new⟩ := moved.shift
  have traced := moved.traced spared
  have known : ∀ place ∈ gone ++ rest, place ∈ state.spots := fun _ => old.mem_iff.mpr
  have once : ((come ++ rest).map Place.pointer).Perm (.range after.allocated) := by
    have before := (old.map Place.pointer).symm.trans placed.once
    have moved := (before.append_left (come.map Place.pointer)).trans traced.objects
    rw [map_append, ← append_assoc] at moved
    rw [map_append]
    refine (perm_append_left_iff (gone.map Place.pointer)).mp (.trans ?_ moved)
    rw [← append_assoc]
    exact perm_append_comm.append_right _
  refine ⟨(new.map _).trans once, ?_, ?_, ?_⟩
  · intro pointer member
    rcases traced.pooled with same | ⟨session, entered, pooled⟩
    · exact Nat.lt_of_lt_of_le (placed.pooled pointer (same ▸ member)) traced.allocated
    · rw [pooled, mem_append, mem_singleton] at member
      rcases member with before | now
      · exact (placed.pooled pointer before).trans_le traced.allocated
      · exact mem_range.mp (once.mem_iff.mp (by simp [entered, now, Place.pointer, Place.session]))
  · intro place member pooled
    rcases traced.pooled with same | ⟨session, entered, more⟩
    · rw [same] at pooled
      rcases mem_append.mp (new.mem_iff.mp member) with comes | stays
      · rcases traced.same place comes with fresh | ⟨before, there, pointer, id⟩
        · exact absurd (placed.pooled _ pooled) (by rw [fresh]; exact Nat.lt_irrefl _)
        · rw [id]
          exact placed.named before (known _ (mem_append_left _ there)) (pointer ▸ pooled)
      · exact placed.named place (known _ (mem_append_right _ stays)) pooled
    · have fits := (sound.moves moved).fits
      rcases mem_append.mp (new.mem_iff.mp member) with comes | stays
      · rw [entered, mem_singleton] at comes
        rw [comes] at member ⊢
        have pooled : session.Pooled := fits _ member
        exact pooled.id
      · rw [more, mem_append, mem_singleton] at pooled
        rcases pooled with before | now
        · exact placed.named place (known _ (mem_append_right _ stays)) before
        · -- The object would be in two places.
          have distinct := once.nodup_iff.mpr nodup_range
          rw [entered, singleton_append, map_cons, nodup_cons] at distinct
          exact absurd (mem_map.mpr ⟨place, stays, now⟩) distinct.1
  · intro place member
    rcases mem_append.mp (new.mem_iff.mp member) with comes | stays
    · exact traced.closed (fun before there =>
        placed.closed before (known _ (mem_append_left _ there))) place comes
    · exact (placed.closed place (known _ (mem_append_right _ stays))).mono traced.server

theorem placed_of_reaches (reached : Reaches settings (SparesPool settings) state) : Placed state ∧ Sound state := by
  apply Reaches.invariant reached
  · exact ⟨⟨.refl _, by simp, by simp [spots], by simp [spots]⟩, by simp [spots], rfl⟩
  · exact fun _ _ _ _ _ invariant spared moved =>
      ⟨invariant.1.moves invariant.2 spared moved, invariant.2.moves moved⟩

/-- In every run in which no request at the limit finds a session in the pool, each session
that was put into the pool is in one place, the pool or one holder, and a session that was
destroyed has been closed on the server. -/
theorem pooled_session_in_one_place {settings : Settings} {state : State}
    (reached : Reaches settings (SparesPool settings) state) {pointer : Nat}
    (pooled : pointer ∈ state.pooled) :
    state.sessions.countP (KqpSession.isAt pointer) +
      state.holders.countP (Holder.isAt pointer) = 1 ∧
    ∀ holder ∈ state.holders, holder.session.pointer = pointer → holder.phase = .deleted →
      state.ClosedOnServer holder.session := by
  obtain ⟨placed, _⟩ := placed_of_reaches reached
  constructor
  · have allocated := mem_range.mpr (placed.pooled pointer pooled)
    have once := (placed.once.count_eq pointer).trans
      (count_eq_one_of_mem nodup_range allocated)
    rw [List.count, countP_map, State.spots, spots, countP_append, countP_map,
      countP_map] at once
    exact once
  · intro holder there here deleted
    have spot : .held holder ∈ state.spots := mem_append_right _ (mem_map_of_mem there)
    obtain ⟨id, known⟩ := Option.isSome_iff_exists.mp (placed.named _ spot (by rw [← here] at pooled; exact pooled))
    exact ⟨id, known, placed.closed _ spot deleted id known⟩

instance (settings : Settings) (state : State) :
    (event : Event) → Decidable (SparesPool settings state event) := by
  rintro ⟨⟩ <;> dsimp only [SparesPool, Settings.HasRoom] <;> infer_instance

/-- A session is returned, touched, found to be broken and deleted. -/
theorem pooled_session_in_one_place_after_delete :
    ∃ state : State, 0 ∈ state.pooled ∧ state.closedOnServer = [7] ∧
      state.sessions.countP (KqpSession.isAt 0) + state.holders.countP (Holder.isAt 0) = 1 := by
  obtain ⟨state, reached, pooled, closed⟩ : ∃ state, Reaches oneSession (SparesPool oneSession) state ∧
      0 ∈ state.pooled ∧ state.closedOnServer = [7] :=
    exists_reachable [.getSession 0, .created (some 7) false 0, .release 0 false, .returnSession 0,
      .periodicTask 5, .markBroken 0, .release 0 false, .deleteSession 0] (by decide +kernel)
  exact ⟨state, pooled, closed, (pooled_session_in_one_place reached pooled).1⟩

/-- A touched session comes back while another one is active.  The next request has to wait,
but it takes the session out of the pool, which is destroyed and not closed. -/
theorem waiting_request_drops_session :
    ∃ state, Reaches oneSession (fun _ _ => True) state ∧ 0 ∈ state.pooled ∧
      state.sessions.countP (KqpSession.isAt 0) + state.holders.countP (Holder.isAt 0) = 0 ∧
      state.closedOnServer = [] :=
  exists_reachable [.getSession 0, .created (some 7) false 0, .release 0 false, .returnSession 0,
    .periodicTask 5, .getSession 20, .release 0 false, .returnSession 0, .getSession 20]
    (by decide +kernel)

end YdbSdk.Session
