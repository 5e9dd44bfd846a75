import YdbSdk.Session.Moves

namespace YdbSdk.Session

open YdbSdk.Control List

/-! # The active counter and the session limit

The counter is the number of sessions being created for requests plus the number of held
sessions that count as active.  Only one step can lift it over the limit.
-/

variable {state after : State} {session : KqpSession} {settings : Settings} {event : Event}
  {gone come : List Place}

theorem spots_pool {sessions more kept : List KqpSession} (holders : List Holder)
    (perm : sessions.Perm (more ++ kept)) :
    (spots sessions holders).Perm (more.map .pooled ++ spots kept holders) := by
  unfold spots
  rw [← append_assoc, ← map_append]
  exact (perm.map _).append_right _

theorem spots_hold (sessions : List KqpSession)
    (perm : holders.Perm (more ++ kept)) :
    (spots sessions holders).Perm (more.map .held ++ spots sessions kept) := by
  unfold spots
  refine ((perm.map Place.held).append_left _).trans ?_
  rw [map_append, ← append_assoc, ← append_assoc]
  exact perm_append_comm.append_right _

theorem perm_eraseIdx {list : List α} (found : list[index]? = some old) :
    list.Perm ([old] ++ list.eraseIdx index) := by
  obtain ⟨inside, rfl⟩ := List.getElem?_eq_some_iff.mp found
  exact (getElem_cons_eraseIdx_perm inside).symm

theorem perm_set {list : List α} (found : list[index]? = some old) (new : α) :
    (list.set index new).Perm ([new] ++ list.eraseIdx index) :=
  set_perm_cons_eraseIdx (List.getElem?_eq_some_iff.mp found).1 new

theorem Moves.shift (moved : Moves settings state event gone come after) :
    ∃ rest, state.spots.Perm (gone ++ rest) ∧ after.spots.Perm (come ++ rest) := by
  have replaced {index : Nat} {old : Holder} (found : state.holders[index]? = some old)
      (new : Holder) : ∃ rest, state.spots.Perm ([.held old] ++ rest) ∧
        (spots state.sessions (state.holders.set index new)).Perm ([.held new] ++ rest) :=
    ⟨_, spots_hold _ (perm_eraseIdx found), spots_hold _ (perm_set found new)⟩
  have last : state.sessions.Perm (state.sessions.getLast?.toList ++ state.sessions.dropLast) := by
    cases last : state.sessions.getLast? with
    | none => rw [List.getLast?_eq_none_iff.mp last]; rfl
    | some session =>
      obtain ⟨front, sessions⟩ := List.getLast?_eq_some_iff.mp last
      rw [sessions, dropLast_concat]
      exact perm_append_comm
  cases moved with
  | stay => exact ⟨_, .refl _, .refl _⟩
  | hit room sessions =>
    rw [State.spots, sessions]
    exact ⟨_, spots_pool _ perm_append_comm, spots_hold _ perm_append_comm⟩
  | miss room sessions => exact ⟨_, .refl _, .refl _⟩
  | queue full => exact ⟨_, spots_pool _ last, .refl _⟩
  | refuse full => exact ⟨_, spots_pool _ last, .refl _⟩
  | allocates fresh fits phase counted => exact ⟨_, .refl _, spots_hold _ perm_append_comm⟩
  | goes found turn => exact replaced found _
  | shutPooled found =>
    exact ⟨_, spots_pool _ (perm_eraseIdx found), spots_pool _ (perm_set found _)⟩
  | leaves other sessions leave rest closes server dropped =>
    have before := spots_pool state.holders sessions
    rename_i kept moved _ _ _
    have now := spots_hold kept (@perm_append_comm _ state.holders (moved.map Prod.snd))
    rw [map_map] at before now
    exact ⟨_, before, now⟩
  | returnFeeds found isOpen returns waiters => exact replaced found _
  | returnPools found returns waiters enters =>
    exact ⟨_, spots_hold _ (perm_eraseIdx found),
      @spots_pool _ [_] _ _ (perm_orderedInsert _ _ _)⟩
  | deleteFeeds found waiters => exact replaced found _
  | deleteCounted found counted unfed => exact replaced found _
  | deleteUncounted found uncounted => exact replaced found _
  | finish found => exact replaced found _

theorem markBroken_fits (inUse : phase = .user ∨ phase = .touching)
    (fits : Holder.Fits ⟨phase, session⟩) : Holder.Fits ⟨phase, session.markBroken⟩ := by
  cases inUse with
  | inl user =>
    subst user
    obtain ⟨counted, usable⟩ := fits
    refine ⟨?_, fun _ => by simp [KqpSession.markBroken]⟩
    cases owned : session.isOwnedBySessionPool with
    | true => simp [KqpSession.markBroken, counted, owned]
    | false => simp [KqpSession.markBroken, counted, (usable (.inl owned)).1]
  | inr touching =>
    subst touching
    obtain ⟨uncounted, inactive, owned, id⟩ := fits
    exact ⟨by simp [KqpSession.markBroken, uncounted, inactive], by simp [KqpSession.markBroken],
      owned, id⟩

theorem KqpSession.Pooled.shutDown (pooled : session.Pooled) : session.markAsClosing.Pooled := by
  unfold KqpSession.markAsClosing
  split
  · exact pooled
  · rw [if_pos pooled.idle]
    exact ⟨pooled.idle, pooled.uncounted, pooled.owned, pooled.id⟩

theorem shutDown_fits (holder : Holder) (fits : holder.Fits) :
    Holder.Fits ⟨holder.phase, holder.session.markAsClosing⟩ ∧
      Holder.isActive ⟨holder.phase, holder.session.markAsClosing⟩ = holder.isActive := by
  obtain ⟨phase, session⟩ := holder
  unfold KqpSession.markAsClosing
  split
  · exact ⟨fits, rfl⟩
  · split
    · cases phase <;> exact ⟨fits, rfl⟩
    · cases phase with
      | replying => exact absurd fits.1 (by assumption)
      | user =>
        obtain ⟨counted, usable⟩ := fits
        refine ⟨⟨?_, by simp⟩, rfl⟩
        cases owned : session.isOwnedBySessionPool with
        | true => simp [counted, owned]
        | false => simp [counted, owned, (usable (.inl owned)).1]
      | touching =>
        obtain ⟨uncounted, inactive, owned, id⟩ := fits
        exact ⟨⟨by simp [uncounted, inactive], by simp, owned, id⟩, rfl⟩
      | returning active =>
        obtain ⟨isActive, uncounted, owned, id⟩ := fits
        refine ⟨⟨by simp, fun inactive => ?_, owned, id⟩, rfl⟩
        have notActive : session.state ≠ .active := fun now => by simp [isActive now] at inactive
        simp [notActive, uncounted inactive]
      | deleting =>
        obtain ⟨counted, foreign⟩ := fits
        by_cases now : session.state = .active
        · refine ⟨⟨by simp, fun notOwned => ?_⟩, by simp [Holder.isActive, counted now]⟩
          have contradictory := foreign notOwned
          rw [counted now] at contradictory
          cases contradictory
        · exact ⟨⟨by simp, fun notOwned => by simp [now, foreign notOwned]⟩,
            by simp [Holder.isActive, now]⟩
      | decrementing => exact ⟨trivial, rfl⟩
      | deleted => exact ⟨trivial, rfl⟩

theorem smartDeleter_fits (client : Client) (migrate : Bool)
    (inUse : phase = .user ∨ phase = .touching) (fits : Holder.Fits ⟨phase, session⟩) :
    (smartDeleter client migrate session).Fits ∧
      (smartDeleter client migrate session).isActive = Holder.isActive ⟨phase, session⟩ := by
  have deleted : Holder.Fits ⟨.deleting, session⟩ ∧
      Holder.isActive ⟨.deleting, session⟩ = Holder.isActive ⟨phase, session⟩ := by
    cases inUse with
    | inl user =>
      subst user
      obtain ⟨counted, usable⟩ := fits
      refine ⟨⟨fun active => ?_, fun foreign => by rw [counted, foreign]⟩, counted⟩
      cases owned : session.isOwnedBySessionPool with
      | true => rw [counted, owned]
      | false => exact absurd active (usable (.inl owned)).1
    | inr touching =>
      subst touching
      obtain ⟨uncounted, inactive, owned, _⟩ := fits
      exact ⟨⟨fun active => absurd active inactive, fun foreign => by simp [owned] at foreign⟩,
        uncounted⟩
  have returned : session.state = .idle ∨ session.state = .active →
      (client.returnSession migrate session).Fits ∧
        (client.returnSession migrate session).isActive = Holder.isActive ⟨phase, session⟩ := by
    intro usable
    have kept : session.isOwnedBySessionPool = true ∧ session.id.isSome = true ∧
        Holder.isActive ⟨phase, session⟩ = session.needUpdateActiveCounter := by
      cases inUse with
      | inl user =>
        subst user
        have sane : ¬ (session.isOwnedBySessionPool = false ∨ session.id = none) := by
          intro either
          have unusable := fits.2 either
          cases usable with
          | inl idle => exact unusable.2 idle
          | inr active => exact unusable.1 active
        rw [not_or] at sane
        exact ⟨by simpa using sane.1, Option.isSome_iff_ne_none.mpr sane.2, fits.1.symm⟩
      | inr touching =>
        subst touching
        exact ⟨fits.2.2.1, fits.2.2.2, fits.1.symm⟩
    have unmarked : Holder.Fits ⟨.returning session.needUpdateActiveCounter, session⟩ :=
      ⟨deleted.1.1, id, kept.1, kept.2.1⟩
    have marked : ∀ idle, session.markIdle = some idle →
        Holder.Fits ⟨.returning session.needUpdateActiveCounter, idle⟩ := by
      intro idle marks
      rw [KqpSession.markIdle_eq marks]
      exact ⟨by simp, fun _ => rfl, kept.1, kept.2.1⟩
    cases client with
    | table =>
      unfold Client.returnSession
      cases migrate with
      | true => exact deleted
      | false =>
        refine ⟨?_, kept.2.2.symm⟩
        cases marks : session.markIdle with
        | none => exact unmarked
        | some idle => exact marked idle marks
    | query =>
      simp only [Client.returnSession]
      cases marks : session.markIdle with
      | none => exact deleted
      | some idle => exact ⟨marked idle marks, kept.2.2.symm⟩
  unfold smartDeleter
  cases state : session.state with
  | standalone => exact deleted
  | broken => exact deleted
  | closing => exact deleted
  | idle => exact returned (.inl state)
  | active => exact returned (.inr state)


theorem Leaves.keeps (leaves : Leaves session holder) (pooled : session.Pooled) :
    holder.Fits ∧ holder.isActive = false := by
  cases leaves with
  | touched =>
    exact ⟨⟨pooled.uncounted, by simp [KqpSession.updateServerCloseHandler, pooled.idle],
      pooled.owned, pooled.id⟩, rfl⟩
  | broken handler =>
    have uncounted : (session.updateServerCloseHandler handler).markBroken.needUpdateActiveCounter =
        false := by
      simp [KqpSession.markBroken, KqpSession.updateServerCloseHandler, pooled.idle,
        pooled.uncounted]
    exact ⟨⟨by simp [KqpSession.markBroken], fun _ => uncounted⟩, uncounted⟩
  | dropped => exact ⟨trivial, rfl⟩

theorem Goes.keeps (goes : Goes settings old new) (fits : old.Fits) :
    new.Fits ∧ new.isActive = old.isActive := by
  cases goes with
  | replies session =>
    obtain ⟨_, owned, id⟩ := fits
    refine ⟨⟨owned.symm, fun missing => ?_⟩, owned⟩
    rw [Option.isSome_iff_ne_none] at id
    simp [owned, id] at missing
  | breaks inUse session =>
    exact ⟨markBroken_fits inUse fits, by rcases inUse with rfl | rfl <;> rfl⟩
  | schedules inUse session => rcases inUse with rfl | rfl <;> exact ⟨fits, rfl⟩
  | shuts => exact shutDown_fits old fits
  | gives inUse migrate session => exact smartDeleter_fits settings.client migrate inUse fits
  | fails active session =>
    obtain ⟨isActive, uncounted, owned, id⟩ := fits
    exact ⟨⟨isActive, fun foreign => absurd (owned.symm.trans foreign) (by simp)⟩, rfl⟩

theorem smartDeleter_object (client : Client) (migrate : Bool) (session : KqpSession) :
    ∃ given, session.SameObject given ∧ (smartDeleter client migrate session = ⟨.deleting, given⟩ ∨
      smartDeleter client migrate session =
        ⟨.returning session.needUpdateActiveCounter, given⟩) := by
  have unchanged : session.SameObject session := ⟨rfl, rfl, rfl⟩
  have marked : ∀ idle, session.markIdle = some idle → session.SameObject idle := by
    intro idle marks
    rw [KqpSession.markIdle_eq marks]
    exact unchanged
  have returned : ∃ given, session.SameObject given ∧
      (client.returnSession migrate session = ⟨.deleting, given⟩ ∨
        client.returnSession migrate session =
          ⟨.returning session.needUpdateActiveCounter, given⟩) := by
    cases marks : session.markIdle with
    | none =>
      cases client with
      | table => cases migrate <;> exact ⟨session, unchanged, by simp [Client.returnSession, marks]⟩
      | query => exact ⟨session, unchanged, by simp [Client.returnSession, marks]⟩
    | some idle =>
      cases client with
      | table =>
        cases migrate with
        | true => exact ⟨session, unchanged, by simp [Client.returnSession]⟩
        | false => exact ⟨idle, marked idle marks, by simp [Client.returnSession, marks]⟩
      | query => exact ⟨idle, marked idle marks, by simp [Client.returnSession, marks]⟩
  unfold smartDeleter
  cases session.state with
  | standalone => exact ⟨session, unchanged, .inl rfl⟩
  | broken => exact ⟨session, unchanged, .inl rfl⟩
  | closing => exact ⟨session, unchanged, .inl rfl⟩
  | idle => exact returned
  | active => exact returned

theorem Goes.object {old new : Holder} (goes : Goes settings old new) :
    old.session.SameObject new.session ∧ (new.phase = .deleted → old.phase = .deleted) ∧
      (new.phase = .decrementing → old.phase = .decrementing) := by
  cases goes with
  | replies session => exact ⟨⟨rfl, rfl, rfl⟩, nofun, nofun⟩
  | breaks inUse session => exact ⟨⟨rfl, rfl, rfl⟩, id, id⟩
  | schedules inUse session => exact ⟨⟨rfl, rfl, rfl⟩, id, id⟩
  | shuts => exact ⟨KqpSession.markAsClosing_sameObject _, id, id⟩
  | gives inUse migrate session =>
    obtain ⟨given, same, either⟩ := smartDeleter_object settings.client migrate session
    rcases either with deleted | returned
    · rw [deleted]
      exact ⟨same, nofun, nofun⟩
    · rw [returned]
      exact ⟨same, nofun, nofun⟩
  | fails active session => exact ⟨⟨rfl, rfl, rfl⟩, nofun, nofun⟩

theorem Moves.fits (moved : Moves settings state event gone come after)
    (fits : ∀ place ∈ gone, place.Fits)
    (covered : gone.countP Place.isActive ≤ state.activeSessions) :
    (∀ place ∈ come, place.Fits) ∧
      after.activeSessions + state.creating + gone.countP Place.isActive =
        state.activeSessions + after.creating + come.countP Place.isActive := by
  cases moved with
  | stay => exact ⟨fits, rfl⟩
  | hit room sessions =>
    obtain ⟨idle, _, owned, id⟩ := forall_mem_singleton.mp fits
    refine ⟨forall_mem_singleton.mpr ⟨idle, owned, id⟩, ?_⟩
    simp [Place.isActive, Holder.isActive]
    omega
  | miss room sessions => exact ⟨fits, by simp only [countP_nil]; omega⟩
  | queue full => exact ⟨by simp, by simp [Place.isActive, Function.comp_def]⟩
  | refuse full => exact ⟨by simp, by simp [Place.isActive, Function.comp_def]⟩
  | allocates fresh newFits phase counted =>
    rename_i holder creating
    refine ⟨forall_mem_singleton.mpr newFits, ?_⟩
    cases active : holder.isActive <;> simp [active, Place.isActive] at counted ⊢ <;> omega
  | goes found turn =>
    obtain ⟨newFits, same⟩ := turn.keeps (fits _ (mem_singleton.mpr rfl))
    refine ⟨forall_mem_singleton.mpr newFits, ?_⟩
    rw [countP_singleton, countP_singleton]
    exact congrArg (fun active : Bool => _ + if active then 1 else 0) same.symm
  | shutPooled found =>
    exact ⟨forall_mem_singleton.mpr (forall_mem_singleton.mp fits).shutDown, rfl⟩
  | leaves other sessions leave =>
    have kept := fun pair member => (leave pair member).keeps (fits _ (mem_map_of_mem member))
    refine ⟨forall_mem_map.mpr fun pair member => (kept pair member).1, ?_⟩
    rw [countP_eq_zero.mpr, countP_eq_zero.mpr]
    · exact forall_mem_map.mpr fun pair member => by simp [Place.isActive, kept pair member]
    · exact forall_mem_map.mpr fun pair member => by simp [Place.isActive]
  | returnFeeds found isOpen returns waiters =>
    rename_i active session
    obtain ⟨_, _, owned, id⟩ := forall_mem_singleton.mp fits
    simp only [KqpSession.canReturnToPool, Bool.and_eq_true, decide_eq_true_eq] at returns
    refine ⟨forall_mem_singleton.mpr ⟨returns.1, owned, id⟩, ?_⟩
    cases active <;> grind [Place.isActive, Holder.isActive]
  | returnPools found returns waiters enters =>
    rename_i active session pooled
    obtain ⟨_, uncounted, owned, id⟩ := forall_mem_singleton.mp fits
    simp only [KqpSession.canReturnToPool, Bool.and_eq_true, decide_eq_true_eq] at returns
    subst enters
    refine ⟨forall_mem_singleton.mpr ⟨returns.1, ?_, owned, id⟩, ?_⟩
    · cases active with
      | true => rfl
      | false => exact uncounted rfl
    · cases active <;> grind [Place.isActive, Holder.isActive]
  | deleteFeeds found waiters =>
    rename_i session
    refine ⟨forall_mem_singleton.mpr trivial, ?_⟩
    cases counted : session.needUpdateActiveCounter <;> grind [Place.isActive, Holder.isActive]
  | deleteCounted found counted unfed =>
    exact ⟨forall_mem_singleton.mpr trivial, by simp [Place.isActive, Holder.isActive, counted]⟩
  | deleteUncounted found uncounted =>
    exact ⟨forall_mem_singleton.mpr trivial, by
      simp [Place.isActive, Holder.isActive, uncounted]⟩
  | finish found =>
    refine ⟨forall_mem_singleton.mpr trivial, ?_⟩
    grind [Place.isActive, Holder.isActive]

theorem Sound.moves (sound : Sound state) (moved : Moves settings state event gone come after) :
    Sound after := by
  obtain ⟨rest, old, new⟩ := moved.shift
  obtain ⟨goneFit, restFit⟩ := forall_mem_append.mp fun place member =>
    sound.fits place (old.mem_iff.mpr member)
  have counted := sound.counted
  rw [old.countP_eq, countP_append] at counted
  obtain ⟨comeFit, follows⟩ := moved.fits goneFit (by omega)
  constructor
  · exact fun place member =>
      forall_mem_append.mpr ⟨comeFit, restFit⟩ place (new.mem_iff.mp member)
  · rw [new.countP_eq, countP_append]
    omega

theorem sound_of_reaches
    (reached : Reaches settings permitted state) : Sound state := by
  apply Reaches.invariant reached
  · exact ⟨by simp [spots], rfl⟩
  · exact fun _ _ _ _ _ sound _ moved => sound.moves moved

def Holder.isCheckedOut (holder : Holder) : Bool :=
  holder.phase = .user && holder.session.isOwnedBySessionPool

def Phase.isHalfWay : Phase → Bool
  | .replying => true
  | .returning _ => true
  | .deleting => true
  | .decrementing => true
  | .user => false
  | .touching => false
  | .deleted => false

def State.Quiescent (state : State) : Prop :=
  ∀ holder ∈ state.holders, holder.phase.isHalfWay = false

/-- Calls half way deal with a session that counts as active. -/
def Holder.isHalfWay (holder : Holder) : Bool := holder.phase.isHalfWay && holder.isActive

theorem isActive_split (holder : Holder) :
    (if holder.isActive then 1 else 0) =
      (if holder.isCheckedOut then 1 else 0) + (if holder.isHalfWay then 1 else 0) := by
  have either : holder.isActive = (holder.isCheckedOut || holder.isHalfWay) ∧
      (holder.isCheckedOut && holder.isHalfWay) = false := by
    obtain ⟨phase, session⟩ := holder
    cases phase <;>
      simp [Holder.isActive, Holder.isCheckedOut, Holder.isHalfWay, Phase.isHalfWay]
  rw [either.1]
  cases checkedOut : holder.isCheckedOut with
  | true => simp [checkedOut] at either ⊢; simp [either.2]
  | false => simp

theorem countP_isActive (holders : List Holder) :
    holders.countP Holder.isActive =
      holders.countP Holder.isCheckedOut + holders.countP Holder.isHalfWay := by
  induction holders with
  | nil => rfl
  | cons holder rest ih =>
    have split := isActive_split holder
    simp only [countP_cons]
    omega

theorem Sound.counted_holders (sound : Sound state) :
    state.activeSessions = state.creating + state.holders.countP Holder.isActive := by
  rw [sound.counted, State.spots, spots, countP_append, countP_map, countP_map,
    countP_eq_zero.mpr (by simp [Place.isActive]), Nat.zero_add]
  rfl

theorem State.Quiescent.no_halfWay (quiescent : state.Quiescent) :
    state.holders.countP Holder.isHalfWay = 0 := by
  rw [countP_eq_zero]
  intro holder member
  simp [Holder.isHalfWay, quiescent holder member]

def State.returnsTouched (state : State) (index : Nat) : Bool :=
  match state.holders[index]? with
  | some ⟨.returning false, session⟩ => !state.closed && session.canReturnToPool
  | _ => false

/-- No touched idle session comes back while a request waits and the counter is at the
limit. -/
def KeepsToLimit (settings : Settings) (state : State) : Event → Prop
  | .returnSession index => state.returnsTouched index = true →
      state.waiters = [] ∨ state.activeSessions < settings.maxActiveSessions
  | _ => True

theorem limit_moves (within : state.activeSessions ≤ settings.maxActiveSessions)
    (limited : 0 < settings.maxActiveSessions) (permitted : KeepsToLimit settings state event)
    (moved : Moves settings state event gone come after) :
    after.activeSessions ≤ settings.maxActiveSessions := by
  have room_le : settings.HasRoom state →
      state.activeSessions + 1 ≤ settings.maxActiveSessions := by
    intro room
    cases room with
    | inl unlimited => omega
    | inr below => exact below
  cases moved with
  | hit room _ => exact room_le room
  | miss room _ => exact room_le room
  | returnFeeds found isOpen returns waiters =>
    rename_i index _ _ active session
    cases active with
    | true => exact within
    | false =>
      have touched : state.returnsTouched index = true := by
        simp [State.returnsTouched, found, isOpen, returns]
      cases permitted touched with
      | inl none => simp [waiters] at none
      | inr below => exact below
  | returnPools found returns waiters enters =>
    dsimp only
    split <;> omega
  | finish found =>
    dsimp only
    omega
  | _ => exact within

/-- In every run in which no touched idle session comes back to a waiting request at the
limit, no assertion fails, the active counter is the number of sessions checked out or being
created, apart from those that a call half way deals with, and stays within the limit. -/
theorem active_counter_within_limit {settings : Settings} {state : State}
    (limited : 0 < settings.maxActiveSessions)
    (reached : Reaches settings (KeepsToLimit settings) state) :
    (∀ event assertion, (react settings event).step state ≠ .error assertion) ∧
    state.activeSessions = state.creating + state.holders.countP Holder.isCheckedOut +
      state.holders.countP Holder.isHalfWay ∧
    (state.Quiescent → state.activeSessions =
      state.creating + state.holders.countP Holder.isCheckedOut) ∧
    state.activeSessions ≤ settings.maxActiveSessions := by
  have sound := sound_of_reaches reached
  have counted := sound.counted_holders
  rw [countP_isActive] at counted
  refine ⟨sound.no_assertion, by omega, fun quiescent => ?_, ?_⟩
  · rw [quiescent.no_halfWay] at counted
    omega
  · apply Reaches.invariant reached
    · exact Nat.zero_le _
    · exact fun _ _ _ _ _ within permitted moved => limit_moves within limited permitted moved

def oneSession : Settings := ⟨.table, 1, 1, 100⟩

instance (settings : Settings) (state : State) (event : Event) :
    Decidable (KeepsToLimit settings state event) := by
  cases event <;> unfold KeepsToLimit <;> infer_instance

/-- A session is created, returned, touched and returned again. -/
theorem active_counter_within_limit_after_touch :
    ∃ state : State, state.sessions.length = 1 ∧ state.Quiescent ∧ state.activeSessions ≤ 1 := by
  obtain ⟨state, reached, one, none⟩ : ∃ state, Reaches oneSession (KeepsToLimit oneSession) state ∧
      state.sessions.length = 1 ∧ state.holders = [] :=
    exists_reachable [.getSession 0, .created (some 7) false 0, .release 0 false, .returnSession 0,
      .periodicTask 5, .release 0 false, .returnSession 0] (by decide +kernel)
  have within := (active_counter_within_limit (by decide) reached).2.2.2
  exact ⟨state, one, by simp [State.Quiescent, none], within⟩

/-- A touched session comes back to a waiting request: two sessions are active then. -/
theorem touched_session_exceeds_limit :
    ∃ state, Reaches oneSession (fun _ _ => True) state ∧
      oneSession.maxActiveSessions < state.activeSessions :=
  exists_reachable [.getSession 0, .created (some 7) false 0, .release 0 false, .returnSession 0,
    .periodicTask 5, .getSession 20, .getSession 20, .release 0 false, .returnSession 0]
    (by decide +kernel)

end YdbSdk.Session
