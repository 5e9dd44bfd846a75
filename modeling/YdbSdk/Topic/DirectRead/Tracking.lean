import YdbSdk.Topic.DirectRead.Session
import YdbSdk.Data.Tally

namespace YdbSdk.Topic.DirectRead

open YdbSdk.Control YdbSdk.Data Code List

/-! # What concerns one partition session

A partition session is started once, so that it has one stream.  Direct read sessions read
its responses, which wait in their queues and are handled by the control session.  Most code
takes away only: it has less read, forgets streams and pushes events that stop nothing.
-/

variable {before middle after state : State} {partitionSession index next node : Nat}
  {more others : List (Nat × Event)} {change : DirectReadSession → DirectReadSession}

def idsOf (partitionSession : Nat) (responses : List Response) : List Nat :=
  (responses.filter fun response => response.partitionSession == partitionSession).map
    Response.directReadId

def State.pushedFor (state : State) (stream : Nat) : List Event :=
  (state.pushed.filter fun entry => entry.1 == stream).map Prod.snd

def State.started (state : State) : List Nat := state.streams.map PartitionStream.partitionSession

def State.position (state : State) (partitionSession : Nat) : Nat :=
  state.started.idxOf partitionSession

def PartitionStream.line (stream : PartitionStream) : PartitionStream := { stream with location := 0 }

def State.lines (state : State) : List PartitionStream := state.streams.map .line

def State.readers (state : State) (partitionSession index : Nat) : Option Nat :=
  (state.session index).partitionSessions.find partitionSession

def State.waiting (state : State) (partitionSession index : Nat) : List Nat :=
  idsOf partitionSession (state.session index).incomingMessages

/-- `readers` has the id that each direct read session expects next, if it reads the partition
session.  A partition session that is not started is like one that is not confirmed. -/
structure View where
  running : Bool
  actual : Prop
  stream : PartitionStream
  readers : Nat → Option Nat
  queues : Nat → List Nat
  pushed : List Event

def State.view (state : State) (partitionSession : Nat) : View where
  running := state.running
  actual := partitionSession ∈ state.started →
    (partitionSession, state.position partitionSession) ∈ state.partitionStreams
  stream := state.lines.getD (state.position partitionSession) ⟨partitionSession, 0, 1, none, false⟩
  readers := state.readers partitionSession
  queues := state.waiting partitionSession
  pushed := state.pushedFor (state.position partitionSession)

/-- The partition session loses at most its reader, and events are pushed. -/
structure Yields (before : View) (more : List Event) (after : View) : Prop where
  running : after.running = true → before.running = true
  actual : after.actual → before.actual
  stream : after.stream = before.stream
  readers : ∀ index next, after.readers index = some next → before.readers index = some next
  queues : after.queues = before.queues
  pushed : after.pushed = before.pushed ++ more

def Spares (before after : View) : Prop := ∃ more, Yields before more after ∧ .stop ∉ more

theorem Yields.trans {more others : List Event}
    (start : Yields first more second) (rest : Yields second others third) :
    Yields first (more ++ others) third where
  running holds := start.running (rest.running holds)
  actual holds := start.actual (rest.actual holds)
  stream := rest.stream.trans start.stream
  readers index next found := start.readers index next (rest.readers index next found)
  queues := rest.queues.trans start.queues
  pushed := by rw [rest.pushed, start.pushed, append_assoc]

theorem Yields.refl (view : View) : Yields view [] view :=
  ⟨id, id, rfl, fun _ _ => id, rfl, (append_nil _).symm⟩

theorem Spares.refl (view : View) : Spares view view := ⟨[], .refl view, by simp⟩

theorem Spares.trans (start : Spares first second)
    (rest : Spares second third) : Spares first third := by
  obtain ⟨more, yields, quiet⟩ := start
  obtain ⟨others, alsoYields, alsoQuiet⟩ := rest
  exact ⟨more ++ others, yields.trans alsoYields, by simp [quiet, alsoQuiet]⟩

/-- What taking away and pushing events does to a state. -/
structure Narrows (before : State) (more : List (Nat × Event)) (after : State) : Prop where
  lines : after.lines = before.lines
  running : after.running = true → before.running = true
  listed : after.partitionStreams ⊆ before.partitionStreams
  readers : ∀ partitionSession index next, after.readers partitionSession index = some next →
    before.readers partitionSession index = some next
  waiting : after.waiting = before.waiting
  pushed : after.pushed = before.pushed ++ more

theorem Narrows.trans (first : Narrows before more middle) (second : Narrows middle others after) :
    Narrows before (more ++ others) after where
  lines := second.lines.trans first.lines
  running holds := first.running (second.running holds)
  listed := Subset.trans second.listed first.listed
  readers partitionSession index next found :=
    first.readers partitionSession index next (second.readers partitionSession index next found)
  waiting := second.waiting.trans first.waiting
  pushed := by rw [second.pushed, first.pushed, append_assoc]

theorem Narrows.refl (state : State) : Narrows state [] state :=
  ⟨rfl, id, .refl _, fun _ _ _ => id, rfl, (append_nil _).symm⟩

/-- The code does not throw, and what it returns with is so. -/
abbrev noThrow (result : State → Prop) : Contract Exception Assertion State α :=
  ⟨fun _ => result, fun _ _ => False, fun _ => True⟩

theorem State.started_eq (state : State) :
    state.started = state.lines.map PartitionStream.partitionSession := by
  rw [State.lines, map_map]
  rfl

theorem Narrows.started (narrows : Narrows before more after) : after.started = before.started := by
  rw [State.started_eq, State.started_eq, narrows.lines]

theorem Narrows.yields (narrows : Narrows before more after) (partitionSession : Nat) :
    Yields (before.view partitionSession)
      ((more.filter fun entry => entry.1 == before.position partitionSession).map Prod.snd)
      (after.view partitionSession) where
  running := narrows.running
  actual actual known := by
    rw [← narrows.started] at known
    have listed := actual known
    rw [State.position, narrows.started] at listed
    exact narrows.listed listed
  stream := by rw [State.view, State.position, narrows.started, narrows.lines]; rfl
  readers := narrows.readers partitionSession
  queues := congrFun narrows.waiting partitionSession
  pushed := by
    simp only [State.view, State.pushedFor, State.position, narrows.started, narrows.pushed,
      filter_append, map_append]

/-! ## The streams -/

structure Placed (state : State) : Prop where
  distinct : state.started.Nodup
  listed : ∀ entry ∈ state.partitionStreams, state.started[entry.2]? = some entry.1
  indices : ∀ entry ∈ state.pushed, entry.1 < state.started.length

def Quiet (before after : State) : Prop :=
  ∃ more, Narrows before more after ∧
    ∀ entry ∈ more, entry.1 < before.started.length ∧ entry.2 ≠ .stop

theorem Narrows.quiet (narrows : Narrows before [] after) : Quiet before after :=
  ⟨[], narrows, by simp⟩

theorem Quiet.started (quiet : Quiet before after) : after.started = before.started := by
  obtain ⟨more, narrows, _⟩ := quiet
  exact narrows.started

theorem Quiet.trans (first : Quiet before middle) (second : Quiet middle after) :
    Quiet before after := by
  obtain ⟨more, narrows, quiet⟩ := first
  obtain ⟨others, alsoNarrows, alsoQuiet⟩ := second
  refine ⟨more ++ others, narrows.trans alsoNarrows, fun entry member => ?_⟩
  rcases mem_append.mp member with early | late
  · exact quiet entry early
  · rw [← narrows.started]
    exact alsoQuiet entry late

theorem Narrows.placed (narrows : Narrows before more after) (placed : Placed before)
    (within : ∀ entry ∈ more, entry.1 < before.started.length) : Placed after := by
  refine ⟨narrows.started ▸ placed.distinct, fun entry member => ?_, fun entry member => ?_⟩
  · rw [narrows.started]
    exact placed.listed entry (narrows.listed member)
  · rw [narrows.pushed] at member
    rw [narrows.started]
    exact (mem_append.mp member).elim (placed.indices entry) (within entry)

theorem Quiet.placed (quiet : Quiet before after) (placed : Placed before) : Placed after := by
  obtain ⟨more, narrows, quiet⟩ := quiet
  exact narrows.placed placed fun entry member => (quiet entry member).1

theorem Quiet.spares (quiet : Quiet before after) (partitionSession : Nat) :
    Spares (before.view partitionSession) (after.view partitionSession) := by
  obtain ⟨more, narrows, quiet⟩ := quiet
  refine ⟨_, narrows.yields partitionSession, fun stop => ?_⟩
  obtain ⟨entry, member, same⟩ := mem_map.mp stop
  exact (quiet entry (mem_of_mem_filter member)).2 same

theorem Placed.position_eq_iff (placed : Placed state)
    (found : state.started[index]? = some other) :
    state.position partitionSession = index ↔ partitionSession = other := by
  have within := (List.getElem?_eq_some_iff.mp found).1
  constructor
  · intro same
    have known : partitionSession ∈ state.started := 
      idxOf_lt_length_iff.mp (show state.position _ < _ from same ▸ within)
    have here := (congrArg (state.started[·]?) same).symm.trans (List.getElem?_idxOf known)
    exact (Option.some.inj (found.symm.trans here)).symm
  · intro same
    subst same
    have known := mem_of_getElem? found
    exact ((List.getElem?_inj within placed.distinct).mp
      (found.trans (List.getElem?_idxOf known).symm)).symm

theorem State.started_of_stream {stream : PartitionStream}
    (found : state.streams[index]? = some stream) :
    state.started[index]? = some stream.partitionSession := by
  rw [State.started, List.getElem?_map, found]
  rfl

theorem Placed.found (placed : Placed state)
    (found : state.partitionStreams.find partitionSession = some index) :
    state.position partitionSession = index ∧ (state.view partitionSession).actual ∧
      ∃ stream, state.streams[index]? = some stream ∧ stream.partitionSession = partitionSession ∧
        (state.view partitionSession).stream = stream.line := by
  have listed := placed.listed _ (Assoc.mem_of_find found)
  have position : state.position partitionSession = index :=
    (placed.position_eq_iff listed).mpr rfl
  rw [State.started, List.getElem?_map] at listed
  obtain ⟨stream, here, same⟩ := Option.map_eq_some_iff.mp listed
  refine ⟨position, fun _ => position ▸ Assoc.mem_of_find found, stream, here, same, ?_⟩
  simp [State.view, position, State.lines, here]

/-! ## Code that takes away -/

def DirectReadSession.held (session : DirectReadSession) : DirectReadSession :=
  { session with closed := false, canceled := false }

/-- All but what the manager remembers and whether the session runs. -/
def State.part (state : State) : List PartitionStream × Assoc Nat Nat × List (Nat × Event) ×
    List DirectReadSession :=
  (state.lines, state.partitionStreams, state.pushed, state.sessions.map .held)

theorem State.held_session (state : State) (index : Nat) :
    (state.session index).held = (state.sessions.map .held).getD index {} := by
  rw [State.session, getD_eq_getElem?_getD, getD_eq_getElem?_getD, List.getElem?_map]
  cases state.sessions[index]? with
  | none => rfl
  | some session => rfl

theorem narrows_of_part (same : after.part = before.part)
    (running : after.running = true → before.running = true) : Narrows before [] after := by
  simp only [State.part, Prod.mk.injEq] at same
  obtain ⟨lines, listed, pushed, sessions⟩ := same
  have held : ∀ index, (after.session index).held = (before.session index).held := by
    intro index
    rw [State.held_session, State.held_session, sessions]
  refine ⟨lines, running, listed ▸ .refl _, fun other index next found => ?_, ?_,
    pushed.trans (append_nil _).symm⟩
  · exact (congrArg (·.partitionSessions.find other) (held index)).symm.trans found
  · funext other index
    exact congrArg (idsOf other ·.incomingMessages) (held index)

theorem quiet_of_part (same : after.part = before.part)
    (running : after.running = true → before.running = true) : Quiet before after :=
  (narrows_of_part same running).quiet

theorem held_modify (change : DirectReadSession → DirectReadSession)
    (same : ∀ session, (change session).held = session.held) (sessions : List DirectReadSession)
    (index : Nat) :
    (sessions.modify index change).map DirectReadSession.held =
      sessions.map .held :=
  (map_modify DirectReadSession.held same sessions index).trans (modify_id _ _)

theorem part_changeSession (state : State) (change : DirectReadSession → DirectReadSession)
    (same : ∀ session, (change session).held = session.held) (index : Nat) :
    (state.changeSession index change).part = state.part := by
  rw [State.part, State.changeSession, held_modify change same]
  rfl

theorem closeManager_narrows (state : State) :
    closeManager.wp (noThrow fun after => Narrows state [] after ∧ after.running = state.running)
      state := by
  have closed : ∀ (entries : Assoc Nat Nat) (sessions : List DirectReadSession),
      (entries.foldl (fun sessions entry => sessions.modify entry.2 .close)
        sessions).map DirectReadSession.held = sessions.map .held := by
    intro entries
    induction entries with
    | nil => exact fun _ => rfl
    | cons entry rest ih =>
      intro sessions
      rw [foldl_cons, ih, held_modify .close fun _ => rfl]
  exact ⟨narrows_of_part (by simp only [State.part, closed]; rfl) id, rfl⟩

theorem abortImpl_narrows (state : State) :
    abortImpl.wp (noThrow fun after => Narrows state [] after ∧ after.running = false) state := by
  have aborted : Narrows state [] { state with aborting := true } :=
    narrows_of_part rfl (by simp [State.running])
  refine wp_then (closeManager_narrows { state with aborting := true }) ?_
  intro _ after closed
  exact ⟨aborted.trans closed.1, closed.2.trans (by simp [State.running])⟩

theorem State.session_changeSession (state : State) (index other : Nat)
    (change : DirectReadSession → DirectReadSession) :
    (state.changeSession index change).session other =
      if index = other ∧ index < state.sessions.length then change (state.session other)
      else state.session other := by
  simp only [State.session, State.changeSession]
  by_cases same : index = other
  · subst same
    by_cases within : index < state.sessions.length
    · simp [within]
    · simp [within]
  · simp [same]

theorem narrows_changeSession
    (incoming : ∀ session, (change session).incomingMessages = session.incomingMessages)
    (reads : ∀ session partitionSession next,
      (change session).partitionSessions.find partitionSession = some next →
        session.partitionSessions.find partitionSession = some next) (index : Nat) :
    Narrows state [] (state.changeSession index change) := by
  refine ⟨rfl, id, .refl _, fun partitionSession other next found => ?_, ?_,
    (append_nil _).symm⟩
  · rw [State.readers, State.session_changeSession] at found
    split at found
    · exact reads _ _ _ found
    · exact found
  · funext partitionSession other
    rw [State.waiting, State.session_changeSession]
    split
    · rw [incoming]
      rfl
    · rfl

theorem deletePartitionSession_erases (partitionSession : Nat) (session : DirectReadSession) :
    (session.deletePartitionSession partitionSession).incomingMessages = session.incomingMessages ∧
      (session.deletePartitionSession partitionSession).partitionSessions =
        session.partitionSessions.erase partitionSession := by
  unfold DirectReadSession.deletePartitionSession
  cases found : session.partitionSessions.find partitionSession with
  | none => exact ⟨rfl, (Assoc.erase_of_find_none found).symm⟩
  | some _ => exact ⟨rfl, rfl⟩

theorem narrows_delete (partitionSession index : Nat) :
    Narrows state [] (state.changeSession index (.deletePartitionSession partitionSession)) := by
  refine narrows_changeSession (fun session => (deletePartitionSession_erases _ session).1)
    (fun session other next here => ?_) index
  rw [(deletePartitionSession_erases _ session).2, Assoc.find_erase] at here
  split at here
  · contradiction
  · exact here

def Drops (partitionSession index : Nat) (before after : State) : Prop :=
  Narrows before [] after ∧ ((before.session index).canceled = false →
    after.readers partitionSession index = none)

theorem Drops.narrows (drops : Drops partitionSession index before middle)
    (narrows : Narrows middle [] after) : Drops partitionSession index before after := by
  refine ⟨drops.1.trans narrows, fun usable => Option.eq_none_iff_forall_ne_some.mpr ?_⟩
  intro next found
  have before := narrows.readers _ _ _ found
  simp [drops.2 usable] at before

theorem deletePartitionSession_drops (partitionSession node index : Nat) (state : State) :
    (deletePartitionSession partitionSession node index).wp
      (noThrow (Drops partitionSession index state)) state := by
  have dropped : Drops partitionSession index state
      { state.changeSession index (.deletePartitionSession partitionSession) with
        locations := state.locations.erase partitionSession } := by
    refine ⟨(narrows_delete partitionSession index).trans (narrows_of_part rfl id), fun _ => ?_⟩
    change ((state.changeSession index _).session index).partitionSessions.find _ = none
    rw [State.session_changeSession]
    split
    · rw [(deletePartitionSession_erases _ _).2, Assoc.find_erase, if_pos rfl]
    · rename_i beyond
      simp [State.session, Nat.le_of_not_lt fun within => beyond ⟨rfl, within⟩]
  have canceled : ∀ state nodeSessions, Narrows state []
      { state.changeSession index (fun session => { session with canceled := true }) with
        nodeSessions } :=
    fun state _ => narrows_of_part (part_changeSession state
      (fun session => { session with canceled := true }) (fun _ => rfl) index) id
  simp only [deletePartitionSession, wp_rules]
  refine ⟨fun _ => ⟨fun _ => dropped.narrows (canceled _ _), fun _ => dropped⟩, fun locked => ?_⟩
  exact ⟨.refl _, fun usable => by simp [usable] at locked⟩

theorem stopPartitionSession_narrows (partitionSession : Nat) (state : State) :
    (stopPartitionSession partitionSession).wp (noThrow (Narrows state [])) state := by
  simp only [stopPartitionSession, wp_rules]
  cases state.locations.find partitionSession with
  | none => exact .refl state
  | some node =>
    cases found : state.nodeSessions.find node with
    | none =>
      simp only [found]
      exact .refl state
    | some index =>
      simp only [found]
      exact wp_then (deletePartitionSession_drops partitionSession node index state)
        fun _ _ drops => drops.1

theorem nodeSession_narrows (node : Nat) (state : State) :
    (nodeSession node).wp (noThrow (Narrows state [])) state := by
  have same : ∀ nodeSessions other, State.session { state with
      sessions := state.sessions ++ [{}], nodeSessions } other = state.session other := by
    intro nodeSessions other
    simp only [State.session, getD_eq_getElem?_getD, List.getElem?_append]
    split
    · rfl
    · rename_i beyond
      rw [List.getElem?_eq_none (Nat.le_of_not_lt beyond)]
      cases other - state.sessions.length with
      | zero => rfl
      | succ _ => rfl
  simp only [nodeSession, wp_rules]
  cases state.nodeSessions.find node with
  | some index => exact .refl state
  | none =>
    simp only [wp_rules]
    refine ⟨rfl, id, .refl _, fun other index next found => ?_, ?_,
      (append_nil _).symm⟩
    · rwa [State.readers, same] at found
    · funext other index
      rw [State.waiting, same, State.waiting]

theorem rememberLocation_narrows (partitionSession node : Nat) (state : State) :
    (rememberLocation partitionSession node).wp (noThrow (Narrows state [])) state := by
  simp only [rememberLocation, wp_rules]
  exact ⟨fun _ => narrows_of_part rfl id, fun _ => .refl state⟩

/-! ## Pushing events -/

/-- The event is pushed, or the session stops running. -/
def Pushes (stream : Nat) (event : Event) (before after : State) : Prop :=
  ∃ more, Narrows before (more.map fun event => (stream, event)) after ∧ more ⊆ [event] ∧
    (after.running = true → more = [event])

theorem pushOrAbort_pushes (stream : Nat) (event : Event) (state : State) :
    (pushOrAbort stream event).wp (noThrow (Pushes stream event state)) state := by
  simp only [pushOrAbort, pushEvent, wp_rules]
  constructor
  · intro _
    refine ⟨by simp, fun _ => wp_then (abortImpl_narrows state) fun _ after aborted => ?_⟩
    exact ⟨[], aborted.1, by simp, fun runs => by simp [aborted.2] at runs⟩
  · intro _
    refine ⟨fun _ => ⟨[event], ?_, .refl _, fun _ => rfl⟩, by simp⟩
    exact ⟨rfl, id, .refl _, fun _ _ _ => id, rfl, rfl⟩

theorem Pushes.quiet (pushes : Pushes stream event before after)
    (within : stream < before.started.length) (quiet : event ≠ .stop) : Quiet before after := by
  obtain ⟨more, narrows, only, _⟩ := pushes
  refine ⟨_, narrows, fun entry member => ?_⟩
  obtain ⟨pushed, inside, rfl⟩ := mem_map.mp member
  exact ⟨within, mem_singleton.mp (only inside) ▸ quiet⟩

theorem pushOrAbort_quiet (reached : Quiet before state)
    (within : stream < before.started.length) (quiet : event ≠ .stop) :
    (pushOrAbort stream event).wp (noThrow (Quiet before)) state := by
  refine wp_then (pushOrAbort_pushes stream event state) fun _ after pushes => ?_
  exact reached.trans (pushes.quiet (reached.started ▸ within) quiet)

theorem erase_narrows (partitionSession : Nat) :
    Narrows state []
      { state with partitionStreams := state.partitionStreams.erase partitionSession } :=
  ⟨rfl, id, (Assoc.erase_sublist _ _).subset, fun _ _ _ => id, rfl, (append_nil _).symm⟩

theorem stopPartitionSessionImpl_quiet (within : index < state.started.length) :
    (stopPartitionSessionImpl index partitionSession false).wp (noThrow (Quiet state)) state := by
  simp only [stopPartitionSessionImpl, wp_rules]
  refine ⟨fun _ => wp_then (stopPartitionSession_narrows _ state) fun _ after narrows => ?_,
    fun _ => trivial⟩
  exact ⟨by simp, fun _ => pushOrAbort_quiet (narrows.trans (erase_narrows _)).quiet within (by simp)⟩

theorem stopPartitionSessionImpl_pushes (index partitionSession : Nat) (state : State) :
    (stopPartitionSessionImpl index partitionSession true).wp (noThrow (Pushes index .stop state))
      state := by
  simp only [stopPartitionSessionImpl, wp_rules]
  refine ⟨fun _ => wp_then (stopPartitionSession_narrows _ state) fun _ after narrows => ?_,
    fun _ => trivial⟩
  refine ⟨fun _ => wp_then (pushOrAbort_pushes index .stop after) fun _ last pushes => ?_, by simp⟩
  obtain ⟨more, alsoNarrows, pushed⟩ := pushes
  exact ⟨more, narrows.trans alsoNarrows, pushed⟩

/-! ## Events that neither read nor move a partition session, nor stop one -/

theorem confirmPartitionStreamDestroy_quiet (index : Nat) (state : State) :
    (confirmPartitionStreamDestroy index).wp (noThrow (Quiet state)) state := by
  simp only [confirmPartitionStreamDestroy, wp_rules]
  cases found : state.streams[index]? with
  | none => exact (Narrows.refl state).quiet
  | some stream =>
    simp only [wp_rules]
    refine ⟨fun _ => (Narrows.refl state).quiet, fun _ => ?_⟩
    exact pushOrAbort_quiet (erase_narrows _).quiet
      (List.getElem?_eq_some_iff.mp (State.started_of_stream found)).1 (by simp)

theorem onEndPartitionSession_quiet (placed : Placed state) (partitionSession : Nat) :
    (onEndPartitionSession partitionSession).wp (noThrow (Quiet state)) state := by
  simp only [onEndPartitionSession, wp_rules]
  cases actual : state.partitionStreams.find partitionSession with
  | none => exact (Narrows.refl state).quiet
  | some index =>
    have within := (List.getElem?_eq_some_iff.mp (placed.listed _ (Assoc.mem_of_find actual))).1
    simp only [wp_bind]
    exact wp_then (stopPartitionSession_narrows _ state) fun _ after narrows =>
      pushOrAbort_quiet narrows.quiet within (by simp)

theorem destroyAllPartitionStreamsImpl_quiet (reached : Quiet before state)
    (within : ∀ entry ∈ entries, entry.2 < before.started.length) :
    (destroyAllPartitionStreamsImpl entries).wp (noThrow (Quiet before)) state := by
  induction entries generalizing state with
  | nil =>
    refine reached.trans (Narrows.quiet ⟨rfl, id, nil_subset _, fun _ _ _ => id, rfl,
      (append_nil _).symm⟩)
  | cons entry rest ih =>
    obtain ⟨partitionSession, index⟩ := entry
    rw [forall_mem_cons] at within
    simp only [destroyAllPartitionStreamsImpl, pushEvent, wp_rules]
    constructor
    · intro _
      exact ⟨by simp, fun _ => wp_then (abortImpl_narrows state) fun _ _ aborted =>
        reached.trans aborted.1.quiet⟩
    · intro _
      refine ⟨fun _ => ih (reached.trans ⟨[(index, .closed)], ?_, ?_⟩) within.2, by simp⟩
      · exact ⟨rfl, id, .refl _, fun _ _ _ => id, rfl, rfl⟩
      · simpa [reached.started] using within.1

def Input.plain : Input → Bool
  | .onInitResponse | .onEndPartitionSession _ | .confirmPartitionStreamDestroy _
  | .abortDirectReadSession _ _ | .reconnect | .closeQueue | .close | .abort => true
  | _ => false

theorem react_quiet (placed : Placed state)
    (plain : input.plain = true) : (react env input).wp (noThrow (Quiet state)) state := by
  have same := (Narrows.refl state).quiet
  cases input with
  | onInitResponse =>
    simp only [react, wp_rules]
    exact ⟨fun _ => ⟨fun _ => quiet_of_part rfl id, fun _ => trivial⟩, fun _ => same⟩
  | onEndPartitionSession partitionSession =>
    simp only [react, onReadDone, wp_rules]
    exact ⟨fun _ => onEndPartitionSession_quiet placed partitionSession, fun _ => same⟩
  | confirmPartitionStreamDestroy index => exact confirmPartitionStreamDestroy_quiet index state
  | abortDirectReadSession session canceled =>
    exact quiet_of_part (part_changeSession state
      (fun session => { session with closed := true, canceled }) (fun _ => rfl) session) id
  | reconnect =>
    simp only [react, wp_rules]
    refine ⟨fun _ => wp_then (closeManager_narrows state) fun _ after closed => ?_,
      fun _ => same⟩
    refine destroyAllPartitionStreamsImpl_quiet closed.1.quiet fun entry member => ?_
    exact (List.getElem?_eq_some_iff.mp (placed.listed _ (closed.1.listed member))).1
  | closeQueue => exact quiet_of_part rfl id
  | close => exact quiet_of_part rfl (by simp [State.running])
  | abort => exact wp_then (abortImpl_narrows state) fun _ _ aborted => aborted.1.quiet
  | _ => contradiction

end YdbSdk.Topic.DirectRead
