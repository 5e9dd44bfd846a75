import YdbSdk.Session.Pool

namespace YdbSdk.Session

open YdbSdk.Control Code List

/-! # What a step of the session pool can do

`Moves` lists the outcomes of every step together with what is known when they occur, and
`react_moves` shows that the list is complete.  A step fails an assertion only in a state
that breaks the invariant `Sound`.
-/

variable {state : State} {settings : Settings}

structure KqpSession.Pooled (session : KqpSession) : Prop where
  idle : session.state = .idle
  uncounted : session.needUpdateActiveCounter = false
  owned : session.isOwnedBySessionPool = true
  id : session.id.isSome = true

def Holder.Fits : Holder → Prop
  | ⟨.replying, session⟩ =>
    session.state = .idle ∧ session.isOwnedBySessionPool = true ∧ session.id.isSome = true
  | ⟨.user, session⟩ =>
    session.needUpdateActiveCounter = session.isOwnedBySessionPool ∧
      (session.isOwnedBySessionPool = false ∨ session.id = none →
        session.state ≠ .active ∧ session.state ≠ .idle)
  | ⟨.touching, session⟩ =>
    session.needUpdateActiveCounter = false ∧ session.state ≠ .active ∧
      session.isOwnedBySessionPool = true ∧ session.id.isSome = true
  | ⟨.returning needUpdateCounter, session⟩ =>
    (session.state = .active → needUpdateCounter = true) ∧
      (needUpdateCounter = false → session.needUpdateActiveCounter = false) ∧
      session.isOwnedBySessionPool = true ∧ session.id.isSome = true
  | ⟨.deleting, session⟩ =>
    (session.state = .active → session.needUpdateActiveCounter = true) ∧
      (session.isOwnedBySessionPool = false → session.needUpdateActiveCounter = false)
  | ⟨.decrementing, _⟩ => True
  | ⟨.deleted, _⟩ => True

def Holder.isActive : Holder → Bool
  | ⟨.replying, _⟩ => true
  | ⟨.user, session⟩ => session.isOwnedBySessionPool
  | ⟨.touching, _⟩ => false
  | ⟨.returning needUpdateCounter, _⟩ => needUpdateCounter
  | ⟨.deleting, session⟩ => session.needUpdateActiveCounter
  | ⟨.decrementing, _⟩ => true
  | ⟨.deleted, _⟩ => false

inductive Place where
  | pooled (session : KqpSession)
  | held (holder : Holder)

def Place.session : Place → KqpSession
  | .pooled session => session
  | .held holder => holder.session

def Place.Fits : Place → Prop
  | .pooled session => session.Pooled
  | .held holder => holder.Fits

def Place.isActive : Place → Bool
  | .pooled _ => false
  | .held holder => holder.isActive

def spots (sessions : List KqpSession) (holders : List Holder) : List Place :=
  sessions.map .pooled ++ holders.map .held

abbrev State.spots (state : State) : List Place := Session.spots state.sessions state.holders

structure Sound (state : State) : Prop where
  fits : ∀ place ∈ state.spots, place.Fits
  counted : state.activeSessions = state.creating + state.spots.countP Place.isActive

theorem Sound.pooled (sound : Sound state)
    (member : session ∈ state.sessions) : session.Pooled :=
  sound.fits (.pooled session) (mem_append_left _ (mem_map_of_mem member))

theorem Sound.fits_at (sound : Sound state) {index : Nat}
    (found : state.holders[index]? = some holder) : holder.Fits :=
  sound.fits (.held holder)
    (mem_append_right _ (mem_map_of_mem (mem_of_getElem? found)))

theorem Sound.active_pos (sound : Sound state) {index : Nat}
    (found : state.holders[index]? = some holder) (active : holder.isActive = true) :
    0 < state.activeSessions := by
  have counted : 0 < state.spots.countP Place.isActive :=
    countP_pos_iff.mpr ⟨.held holder,
      mem_append_right _ (mem_map_of_mem (mem_of_getElem? found)), active⟩
  rw [sound.counted]
  omega

def Settings.HasRoom (settings : Settings) (state : State) : Prop :=
  settings.maxActiveSessions = 0 ∨ state.activeSessions < settings.maxActiveSessions

def Phase.InUse (phase : Phase) : Prop := phase = .user ∨ phase = .touching

/-- What a step makes of one holder while the counters stay as they are. -/
inductive Goes (settings : Settings) : Holder → Holder → Prop where
  | replies (session : KqpSession) :
      Goes settings ⟨.replying, session⟩
        ⟨.user, { session with state := .active, needUpdateActiveCounter := true }⟩
  | breaks {phase : Phase} (inUse : phase.InUse) (session : KqpSession) :
      Goes settings ⟨phase, session⟩ ⟨phase, session.markBroken⟩
  | schedules {phase : Phase} (inUse : phase.InUse) (session : KqpSession) (time : Nat)
      (past : Option Nat) :
      Goes settings ⟨phase, session⟩ ⟨phase, session.scheduleTimeToTouch time past⟩
  | shuts (holder : Holder) : Goes settings holder ⟨holder.phase, holder.session.markAsClosing⟩
  | gives {phase : Phase} (inUse : phase.InUse) (migrate : Bool) (session : KqpSession) :
      Goes settings ⟨phase, session⟩ (smartDeleter settings.client migrate session)
  | fails (active : Bool) (session : KqpSession) :
      Goes settings ⟨.returning active, session⟩
        ⟨.deleting, session.setNeedUpdateActiveCounter active⟩

/-- What becomes of a session that leaves the pool unasked. -/
inductive Leaves : KqpSession → Holder → Prop where
  | touched (session : KqpSession) :
      Leaves session ⟨.touching, session.updateServerCloseHandler false⟩
  | broken (session : KqpSession) (handler : Bool) :
      Leaves session ⟨.deleting, (session.updateServerCloseHandler handler).markBroken⟩
  | dropped (session : KqpSession) : Leaves session ⟨.deleted, session⟩

def Event.isRequest : Event → Bool
  | .getSession _ => true
  | _ => false

/-- The outcomes of an event: the places that go, those that come, and the state after it. -/
inductive Moves (settings : Settings) (state : State) :
    Event → List Place → List Place → State → Prop where
  | stay {event : Event} : Moves settings state event [] [] state
  | hit {deadline : Nat} {front : List KqpSession} {session : KqpSession}
      (room : settings.HasRoom state) (sessions : state.sessions = front ++ [session]) :
      Moves settings state (.getSession deadline) [.pooled session]
        [.held ⟨.replying, session.updateServerCloseHandler false⟩]
        { state with
          activeSessions := state.activeSessions + 1
          sessions := front
          holders := state.holders ++ [⟨.replying, session.updateServerCloseHandler false⟩] }
  | miss {deadline : Nat} (room : settings.HasRoom state) (sessions : state.sessions = []) :
      Moves settings state (.getSession deadline) [] []
        { state with
          activeSessions := state.activeSessions + 1
          creating := state.creating + 1 }
  | queue {deadline : Nat} (full : ¬ settings.HasRoom state) :
      Moves settings state (.getSession deadline) (state.sessions.getLast?.toList.map .pooled) []
        { state with
          waiters := state.waiters.orderedInsert (· < ·) deadline
          sessions := state.sessions.dropLast }
  | refuse {deadline : Nat} (full : ¬ settings.HasRoom state) :
      Moves settings state (.getSession deadline) (state.sessions.getLast?.toList.map .pooled) []
        { state with sessions := state.sessions.dropLast }
  | allocates {event : Event} {holder : Holder} {creating : Nat}
      (fresh : holder.session.pointer = state.allocated) (fits : holder.Fits)
      (phase : holder.phase = .user ∨ holder.phase = .deleting)
      (counted : state.creating = creating + if holder.isActive then 1 else 0) :
      Moves settings state event [] [.held holder]
        { state with
          allocated := state.allocated + 1
          creating
          holders := state.holders ++ [holder] }
  | goes {event : Event} {index : Nat} {old new : Holder}
      (found : state.holders[index]? = some old) (turn : Goes settings old new) :
      Moves settings state event [.held old] [.held new]
        { state with holders := state.holders.set index new }
  | shutPooled {event : Event} {index : Nat} {session : KqpSession}
      (found : state.sessions[index]? = some session) :
      Moves settings state event [.pooled session] [.pooled session.markAsClosing]
        { state with sessions := state.sessions.set index session.markAsClosing }
  | leaves {event : Event} {kept : List KqpSession} {moved : List (KqpSession × Holder)}
      {waiters closedOnServer : List Nat} {closed : Bool} (other : event.isRequest = false)
      (sessions : state.sessions.Perm (moved.map Prod.fst ++ kept))
      (leave : ∀ pair ∈ moved, Leaves pair.1 pair.2) (suffix : waiters <:+ state.waiters)
      (closes : closed = state.closed ∨ waiters = [])
      (server : state.closedOnServer ⊆ closedOnServer)
      (dropped : ∀ pair ∈ moved, pair.2.phase = .deleted →
        ∀ id, pair.2.session.id = some id → id ∈ closedOnServer) :
      Moves settings state event (moved.map fun pair => .pooled pair.1)
        (moved.map fun pair => .held pair.2)
        { state with
          sessions := kept, waiters, closed, closedOnServer
          holders := state.holders ++ moved.map Prod.snd }
  | returnFeeds {index waiter : Nat} {rest : List Nat} {active : Bool} {session : KqpSession}
      (found : state.holders[index]? = some ⟨.returning active, session⟩)
      (isOpen : state.closed = false) (returns : session.canReturnToPool = true)
      (waiters : state.waiters = waiter :: rest) :
      Moves settings state (.returnSession index) [.held ⟨.returning active, session⟩]
        [.held ⟨.replying, session.updateServerCloseHandler false⟩]
        { state with
          waiters := rest
          holders := state.holders.set index ⟨.replying, session.updateServerCloseHandler false⟩
          activeSessions := if active then state.activeSessions else state.activeSessions + 1 }
  | returnPools {index : Nat} {active : Bool} {session pooled : KqpSession}
      (found : state.holders[index]? = some ⟨.returning active, session⟩)
      (returns : session.canReturnToPool = true) (waiters : state.waiters = [])
      (enters : pooled = { session with
        closeHandler := true
        needUpdateActiveCounter := !active && session.needUpdateActiveCounter }) :
      Moves settings state (.returnSession index) [.held ⟨.returning active, session⟩]
        [.pooled pooled]
        { state with
          sessions := state.sessions.orderedInsert
            (fun first second => first.timeToTouch < second.timeToTouch) pooled
          holders := state.holders.eraseIdx index
          pooled := state.pooled ++ [session.pointer]
          activeSessions := if active then state.activeSessions - 1 else state.activeSessions }
  | deleteFeeds {index waiter : Nat} {rest : List Nat} {session : KqpSession}
      (found : state.holders[index]? = some ⟨.deleting, session⟩)
      (waiters : state.waiters = waiter :: rest) :
      Moves settings state (.deleteSession index) [.held ⟨.deleting, session⟩]
        [.held ⟨.deleted, session.setNeedUpdateActiveCounter false⟩]
        { state with
          waiters := rest
          creating := if session.needUpdateActiveCounter then state.creating + 1
            else state.creating
          closedOnServer := state.closedOnServer ++ session.id.toList
          holders := state.holders.set index
            ⟨.deleted, session.setNeedUpdateActiveCounter false⟩ }
  | deleteCounted {index : Nat} {session : KqpSession}
      (found : state.holders[index]? = some ⟨.deleting, session⟩)
      (counted : session.needUpdateActiveCounter = true)
      (unfed : session.isOwnedBySessionPool = false ∨ state.closed = true ∨ state.waiters = []) :
      Moves settings state (.deleteSession index) [.held ⟨.deleting, session⟩]
        [.held ⟨.decrementing, session⟩]
        { state with holders := state.holders.set index ⟨.decrementing, session⟩ }
  | deleteUncounted {index : Nat} {session : KqpSession}
      (found : state.holders[index]? = some ⟨.deleting, session⟩)
      (uncounted : session.needUpdateActiveCounter = false) :
      Moves settings state (.deleteSession index) [.held ⟨.deleting, session⟩]
        [.held ⟨.deleted, session⟩]
        { state with
          closedOnServer := state.closedOnServer ++ session.id.toList
          holders := state.holders.set index ⟨.deleted, session⟩ }
  | finish {index : Nat} {session : KqpSession}
      (found : state.holders[index]? = some ⟨.decrementing, session⟩) :
      Moves settings state (.finishDeleteSession index) [.held ⟨.decrementing, session⟩]
        [.held ⟨.deleted, session⟩]
        { state with
          activeSessions := state.activeSessions - 1
          closedOnServer := state.closedOnServer ++ session.id.toList
          holders := state.holders.set index ⟨.deleted, session⟩ }

/-- The outcomes of a step, which fails an assertion only in an unsound state. -/
abbrev Does (settings : Settings) (event : Event) : Prop :=
  ∀ state, (react settings event).wp
    (.keeping (fun after => ∃ gone come, Moves settings state event gone come after)
      (fun _ => ¬ Sound state)) state

theorem sessionSource_pool :
    settings.sessionSource state = .pool ↔ settings.HasRoom state := by
  unfold Settings.sessionSource Settings.HasRoom
  split
  · simp [*]
  · split <;> simp [*]

theorem getSession_does (deadline : Nat) : Does settings (.getSession deadline) := by
  intro state
  have full {source : SessionSource} (chosen : settings.sessionSource state = source)
      (other : source ≠ .pool) : ¬ settings.HasRoom state := by
    rw [← sessionSource_pool, chosen]
    exact other
  simp only [react, getSession, wp_rules]
  cases source : settings.sessionSource state with
  | pool =>
    have room := sessionSource_pool.mp source
    simp only [incrementActiveCounterUnsafe, wp_rules, takeLast]
    cases last : state.sessions.getLast? with
    | none => exact ⟨_, _, .miss room (List.getLast?_eq_none_iff.mp last)⟩
    | some session =>
      obtain ⟨front, sessions⟩ := List.getLast?_eq_some_iff.mp last
      simp only [wp_rules, sessions, dropLast_concat]
      exact ⟨_, _, .hit room sessions⟩
  | waiter =>
    have queued := @Moves.queue settings state deadline (full source (by simp))
    simp only [pushWaiter, wp_rules, takeLast]
    cases last : state.sessions.getLast? with
    | none =>
      simp only [List.getLast?_eq_none_iff.mp last, dropLast_nil] at queued
      rw [← List.getLast?_eq_none_iff.mp last] at queued
      exact ⟨_, _, queued⟩
    | some session => exact ⟨_, _, queued⟩
  | error =>
    simp only [wp_rules, takeLast]
    cases last : state.sessions.getLast? with
    | none => exact ⟨_, _, .stay⟩
    | some session => exact ⟨_, _, .refuse (full source (by simp))⟩

theorem replySessionToUser_does (index : Nat) : Does settings (.replySessionToUser index) := by
  intro state
  simp only [react, replySessionToUser, wp_rules]
  split
  · rename_i session found
    have unsound : session.state ≠ .idle → ¬ Sound state :=
      fun busy sound => busy (sound.fits_at found).1
    simp only [wp_rules, decide_eq_true_eq, decide_eq_false_iff_not]
    refine ⟨fun idle => ?_, unsound⟩
    have marked : session.markActive =
        some { session with state := .active, needUpdateActiveCounter := false } := by
      simp [KqpSession.markActive, idle]
    rw [marked]
    exact ⟨_, _, .goes found (.replies session)⟩
  · exact ⟨_, _, .stay⟩

theorem onRequest_does {event : Event} (index : Nat) (effect : KqpSession → KqpSession)
    (goes : ∀ {phase : Phase} (_ : phase.InUse) (session : KqpSession),
      Goes settings ⟨phase, session⟩ ⟨phase, effect session⟩) (state : State) :
    (onRequest index effect).wp
      (.keeping (fun after => ∃ gone come, Moves settings state event gone come after)
        (fun _ => ¬ Sound state)) state := by
  simp only [onRequest, wp_rules]
  split
  · rename_i session found
    exact ⟨_, _, .goes found (goes (.inl rfl) session)⟩
  · rename_i session found
    exact ⟨_, _, .goes found (goes (.inr rfl) session)⟩
  · exact ⟨_, _, .stay⟩

theorem created_does (id : Option Nat) (retry : Bool) (now : Nat) :
    Does settings (.created id retry now) := by
  intro state
  simp only [react, created, wp_rules]
  refine ⟨fun _ => ⟨_, _, .stay⟩, fun some => ⟨fun retried => ?_, fun _ => ?_⟩⟩
  · simp only [Bool.and_eq_true, Option.isNone_iff_eq_none] at retried
    rw [retried.1.2]
    exact ⟨_, _, .allocates rfl ⟨by simp [KqpSession.markBroken], fun _ => rfl⟩ (.inr rfl) rfl⟩
  · refine ⟨_, _, .allocates ?_ ?_ (.inl rfl) ?_⟩
    · cases id <;> rfl
    · cases id with
      | none => exact ⟨rfl, by simp [KqpSession.markBroken, KqpSession.setNeedUpdateActiveCounter]⟩
      | some id => exact ⟨rfl, fun missing => by simp [KqpSession.markActive,
          KqpSession.setNeedUpdateActiveCounter] at missing⟩
    · cases id <;> simp [Holder.isActive, KqpSession.markBroken, KqpSession.markActive,
        KqpSession.setNeedUpdateActiveCounter] <;> omega

theorem createSession_does (id : Option Nat) (now : Nat) :
    Does settings (.createSession id now) := by
  intro state
  simp only [react, wp_rules]
  refine ⟨fun _ => ?_, fun _ => ⟨_, _, .stay⟩⟩
  cases id with
  | none => exact ⟨_, _, .allocates rfl ⟨rfl, by simp [KqpSession.markBroken]⟩ (.inl rfl) rfl⟩
  | some id => exact ⟨_, _, .allocates rfl ⟨rfl, by simp⟩ (.inl rfl) rfl⟩

theorem perm_cons_eraseP {list : List α}
    (found : list.find? matching = some old) : list.Perm (old :: list.eraseP matching) := by
  obtain ⟨holds, front, back, rfl, others⟩ := List.find?_eq_some_iff_append.mp found
  rw [eraseP_append_right _ (by simpa using others), eraseP_cons_of_pos holds]
  exact perm_middle

theorem closeFromServer_does (target : Target) : Does settings (.closeFromServer target) := by
  intro state
  simp only [react, closeFromServer, wp_rules]
  cases state.target target with
  | none => exact ⟨_, _, .stay⟩
  | some session =>
    simp only [onCloseSession, wp_rules]
    refine ⟨fun _ => ?_, fun _ => ⟨_, _, .stay⟩⟩
    cases there : state.sessions.find? (sameEntry session) with
    | none => exact ⟨_, _, .stay⟩
    | some found =>
      simp only [wp_rules]
      refine ⟨fun _ => ?_, fun busy sound => ?_⟩
      · exact ⟨_, _, @Moves.leaves _ _ _ _ [(found, ⟨.deleting, found.markBroken⟩)] _ _ _ rfl
          (perm_cons_eraseP there)
          (forall_mem_singleton.mpr (.broken found found.closeHandler))
          (suffix_refl _) (.inl rfl) (.refl _)
          (forall_mem_singleton.mpr (by simp))⟩
      · have idle := (sound.pooled (mem_of_find?_eq_some there)).idle
        simp [isIdle, idle] at busy

theorem release_does (index : Nat) (migrate : Bool) : Does settings (.release index migrate) := by
  intro state
  simp only [react, release, wp_rules]
  split
  · rename_i session found
    exact ⟨_, _, .goes found (.gives (.inl rfl) migrate session)⟩
  · rename_i session found
    exact ⟨_, _, .goes found (.gives (.inr rfl) migrate session)⟩
  · exact ⟨_, _, .stay⟩

theorem shutDown_does (target : Target) : Does settings (.shutDown target) := by
  intro state
  cases target with
  | pooled index =>
    simp only [react, shutDown, wp_rules, modify_eq_set_getElem?]
    cases found : state.sessions[index]? with
    | none => exact ⟨_, _, .stay⟩
    | some session => exact ⟨_, _, .shutPooled found⟩
  | held index =>
    simp only [react, shutDown, wp_rules, modify_eq_set_getElem?]
    cases found : state.holders[index]? with
    | none => exact ⟨_, _, .stay⟩
    | some holder => exact ⟨_, _, .goes found (.shuts holder)⟩

theorem returnSession_does (index : Nat) : Does settings (.returnSession index) := by
  intro state
  simp only [react, returnSession, wp_rules]
  split
  · rename_i active session found
    have fails : ∃ gone come, Moves settings state (.returnSession index) gone come _ :=
      ⟨_, _, .goes found (.fails active session)⟩
    simp only [poolReturnSession, wp_rules]
    cases closed : state.closed with
    | true => simpa [setHolder] using fails
    | false =>
      cases returns : session.canReturnToPool with
      | false => simpa [setHolder] using fails
      | true =>
        cases waiters : state.waiters with
        | cons waiter rest =>
          have feeds : ∃ gone come, Moves settings state (.returnSession index) gone come _ :=
            ⟨_, _, .returnFeeds found closed returns waiters⟩
          cases active with
          | true => simpa [setHolder] using feeds
          | false => simpa [setHolder, incrementActiveCounterUnsafe] using feeds
        | nil =>
          have pools : ∃ gone come, Moves settings state (.returnSession index) gone come _ :=
            ⟨_, _, .returnPools found returns waiters rfl⟩
          cases active with
          | true =>
            have unsound : state.activeSessions = 0 → ¬ Sound state := by
              intro none sound
              exact Nat.ne_of_gt (sound.active_pos found rfl) none
            simpa [emplace, decrementActiveCounter] using ⟨fun _ => pools, unsound⟩
          | false => simpa [emplace, KqpSession.updateServerCloseHandler] using pools
  · exact ⟨_, _, .stay⟩

theorem deleteSession_does (index : Nat) : Does settings (.deleteSession index) := by
  intro state
  simp only [react, deleteSession, wp_rules]
  split
  · rename_i session found
    -- Nothing is fed: the session waits for the counter or is destroyed at once.
    have unfed : session.isOwnedBySessionPool = false ∨ state.closed = true ∨ state.waiters = [] →
        (if session.needUpdateActiveCounter then setHolder index .decrementing session
          else destroy index session : Pool Unit).wp
          (.keeping (fun after => ∃ gone come, Moves settings state (.deleteSession index) gone come
            after) (fun _ => ¬ Sound state)) state := by
      intro reason
      simp only [wp_rules, destroy, closeInternal, setHolder]
      constructor
      · exact fun counted => ⟨_, _, .deleteCounted found counted reason⟩
      · exact fun uncounted => ⟨_, _, .deleteUncounted found (by simpa using uncounted)⟩
    simp only [wp_rules, checkAndFeedWaiterNewSession]
    refine ⟨fun _ => ⟨fun closed => ?_, fun isOpen => ?_⟩, fun foreign => ?_⟩
    · simpa using unfed (.inr (.inl closed))
    · cases waiters : state.waiters with
      | nil => simpa using unfed (.inr (.inr waiters))
      | cons waiter rest =>
        have feeds : ∃ gone come, Moves settings state (.deleteSession index) gone come _ :=
          ⟨_, _, .deleteFeeds found waiters⟩
        cases counted : session.needUpdateActiveCounter with
        | true =>
          simpa [counted, KqpSession.setNeedUpdateActiveCounter, replyNewSession, destroy,
            closeInternal, setHolder] using feeds
        | false =>
          simpa [counted, KqpSession.setNeedUpdateActiveCounter, destroy, closeInternal,
            setHolder] using feeds
    · simpa using unfed (.inl (by simpa using foreign))
  · exact ⟨_, _, .stay⟩

theorem finishDeleteSession_does (index : Nat) : Does settings (.finishDeleteSession index) := by
  intro state
  simp only [react, finishDeleteSession, wp_rules]
  split
  · rename_i session found
    simp only [decrementActiveCounter, wp_rules,
      decide_eq_false_iff_not]
    exact ⟨fun _ => ⟨_, _, .finish found⟩, fun none sound => none (sound.active_pos found rfl)⟩
  · exact ⟨_, _, .stay⟩

theorem perm_sortOut (settings : Settings) (now count size : Nat) (sessions : List KqpSession) :
    let sorted := sortOut settings now count size sessions
    ∃ touched deleted, sessions.Perm (touched ++ deleted ++ sorted.kept) ∧
      sorted.toTouch = touched.map (·.updateServerCloseHandler false) ∧
      sorted.toDelete = deleted.map (·.updateServerCloseHandler false) := by
  induction sessions generalizing count size with
  | nil => exact ⟨[], [], by simp [sortOut], by simp [sortOut], by simp [sortOut]⟩
  | cons first rest ih =>
    cases count with
    | zero => exact ⟨[], [], by simp [sortOut], rfl, rfl⟩
    | succ count =>
      rw [sortOut]
      split
      · exact ⟨[], [], .refl _, rfl, rfl⟩
      · split
        · obtain ⟨touched, deleted, perm, touch, delete⟩ := ih count (size - 1)
          refine ⟨touched, first :: deleted, ?_, touch, by simp [delete]⟩
          rw [append_assoc] at perm ⊢
          exact (perm.cons first).trans perm_middle.symm
        · split
          · obtain ⟨touched, deleted, perm, touch, delete⟩ := ih count (size - 1)
            exact ⟨first :: touched, deleted, perm.cons first, by simp [touch], delete⟩
          · obtain ⟨touched, deleted, perm, touch, delete⟩ := ih count size
            exact ⟨touched, deleted, (perm.cons first).trans perm_middle.symm, touch, delete⟩

theorem periodicTask_does (now : Nat) : Does settings (.periodicTask now) := by
  intro state
  obtain ⟨touched, deleted, perm, touch, delete⟩ :=
    perm_sortOut settings now periodicActionBatchSize state.sessions.length state.sessions
  have pooled (sound : Sound state) : ∀ session ∈ touched ++ deleted, session.Pooled :=
    fun session member => sound.pooled (perm.mem_iff.mpr (mem_append_left _ member))
  simp only [react, periodicTask, wp_rules, touch, delete, all_map]
  refine ⟨fun _ => ⟨fun _ => ?_, fun missing sound => ?_⟩, fun busy sound => ?_⟩
  · have moves := @Moves.leaves settings state (.periodicTask now) _
      (touched.map (fun session => (session, ⟨.touching, session.updateServerCloseHandler false⟩)) ++
        deleted.map fun session =>
          (session, ⟨.deleting, (session.updateServerCloseHandler false).markBroken⟩))
      (getOld now state.waiters) _ _ rfl (by simpa [Function.comp_def] using perm)
      (by simp only [forall_mem_append, forall_mem_map]
          exact ⟨fun session _ => .touched session, fun session _ => .broken session false⟩)
      (dropWhile_suffix _) (.inl rfl) (.refl _)
      (by simp only [forall_mem_append, forall_mem_map]
          exact ⟨fun _ _ => by simp, fun _ _ => by simp⟩)
    exact ⟨_, _, by simpa [Function.comp_def] using moves⟩
  · apply Bool.eq_false_iff.mp missing
    rw [all_eq_true]
    exact fun session member => (pooled sound session (mem_append_left _ member)).id
  · apply Bool.eq_false_iff.mp busy
    rw [← all_append, all_eq_true]
    exact fun session member => decide_eq_true (pooled sound session member).idle

theorem drain_does : Does settings .drain := by
  intro state
  simp only [react, wp_rules]
  refine ⟨fun _ => ?_, fun _ => ⟨_, _, .stay⟩⟩
  have moves := @Moves.leaves settings state .drain []
    (state.sessions.map fun session => (session, ⟨.deleted, session⟩)) []
    (state.closedOnServer ++ state.sessions.filterMap KqpSession.id) true rfl
    (by simp [Function.comp_def]) (forall_mem_map.mpr fun session _ => .dropped session)
    (nil_suffix) (.inr rfl) (subset_append_left _ _)
    (forall_mem_map.mpr fun session member _ id known =>
      mem_append_right _ (mem_filterMap.mpr ⟨session, member, known⟩))
  exact ⟨_, _, by simpa [Function.comp_def] using moves⟩

theorem react_does (event : Event) : Does settings event := by
  cases event with
  | getSession deadline => exact getSession_does deadline
  | replySessionToUser index => exact replySessionToUser_does index
  | created id retry now => exact created_does id retry now
  | createSession id now => exact createSession_does id now
  | markBroken index => exact onRequest_does index _ .breaks
  | scheduleTimeToTouch index time past =>
    exact onRequest_does index _ fun inUse session => .schedules inUse session time past
  | shutDown target => exact shutDown_does target
  | closeFromServer target => exact closeFromServer_does target
  | release index migrate => exact release_does index migrate
  | returnSession index => exact returnSession_does index
  | deleteSession index => exact deleteSession_does index
  | finishDeleteSession index => exact finishDeleteSession_does index
  | periodicTask now => exact periodicTask_does now
  | clearOldWaiters now =>
    intro state
    have moves := @Moves.leaves settings state (.clearOldWaiters now) state.sessions []
      (getOld now state.waiters) _ _ rfl (.refl _) (by simp) (dropWhile_suffix _) (.inl rfl)
      (.refl _) (by simp)
    exact ⟨_, _, by simpa using moves⟩
  | drain => exact drain_does

theorem react_moves {after : State}
    (taken : (react settings event).step state = .ok after) :
    ∃ gone come, Moves settings state event gone come after := by
  have moved := wp_step (react_does event state) taken
  exact moved

theorem Sound.no_assertion (sound : Sound state) (event : Event) (assertion : Assertion) :
    (react settings event).step state ≠ .error assertion :=
  fun failed => wp_step_error (react_does event state) failed sound

theorem Reaches.invariant {settings : Settings} {permitted : State → Event → Prop}
    {property : State → Prop} {state : State} (reached : Reaches settings permitted state)
    (start : property {}) (kept : ∀ before event gone come after, property before →
      permitted before event → Moves settings before event gone come after → property after) :
    property state := by
  induction reached with
  | start => exact start
  | step event _ allowed taken ih =>
    obtain ⟨gone, come, moved⟩ := react_moves taken
    exact kept _ event gone come _ ih allowed moved

end YdbSdk.Session
