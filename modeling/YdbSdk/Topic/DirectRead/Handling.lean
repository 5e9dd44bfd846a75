import YdbSdk.Topic.DirectRead.Moves

namespace YdbSdk.Topic.DirectRead

open YdbSdk.Control YdbSdk.Data Code List

/-! # The moves of the events -/

variable {env : Environment} {before middle after state : State}
  {partitionSession index next position : Nat} {response : Response} {rest : List Response}
  {stream : PartitionStream} {input : Input}

/-! ## Reading from a session -/

/-- At most the one partition session is read from `next` on. -/
def Starts (partitionSession next : Nat) (before after : State) : Prop :=
  (Placed before → Placed after) ∧ (before.view partitionSession).Begins next
    (after.view partitionSession) ∧
    ∀ other, other ≠ partitionSession → Spares (before.view other) (after.view other)

theorem Quiet.starts (quiet : Quiet before middle) (starts : Starts partitionSession next middle after) :
    Starts partitionSession next before after :=
  ⟨fun placed => starts.1 (quiet.placed placed), (quiet.spares _).begins starts.2.1,
    fun other apart => (quiet.spares other).trans (starts.2.2 other apart)⟩

theorem Starts.quiet (starts : Starts partitionSession next before middle) (quiet : Quiet middle after) :
    Starts partitionSession next before after :=
  ⟨fun placed => quiet.placed (starts.1 placed), starts.2.1.spares (quiet.spares _),
    fun other apart => (starts.2.2 other apart).trans (quiet.spares other)⟩

theorem Starts.refl (partitionSession next : Nat) (state : State) :
    Starts partitionSession next state state :=
  ⟨id, ⟨0, state.readers partitionSession, fun _ _ => .inr, .refl _⟩, fun _ _ => .refl _⟩

theorem startReading_starts (state : State) (index partitionSession next : Nat) :
    Starts partitionSession next state (state.changeSession index fun session =>
      { session with
        partitionSessions := session.partitionSessions.insert partitionSession next }) := by
  have waits : ∀ other, State.waiting (state.changeSession index fun session =>
      { session with
        partitionSessions := session.partitionSessions.insert partitionSession next }) other =
      state.waiting other := by
    intro other
    funext session
    rw [State.waiting, State.session_changeSession]
    split
    · rfl
    · rfl
  have reads : ∀ other session found, State.readers (state.changeSession index fun session =>
      { session with
        partitionSessions := session.partitionSessions.insert partitionSession next })
        other session = some found → (other = partitionSession ∧ session = index ∧ found = next) ∨
          state.readers other session = some found := by
    intro other session found here
    rw [State.readers, State.session_changeSession] at here
    split at here
    · rename_i changed
      rw [Assoc.find_insert] at here
      split at here
      · rename_i same
        exact .inl ⟨same, changed.1.symm, (Option.some.inj here).symm⟩
      · exact .inr here
    · exact .inr here
  refine ⟨fun placed => ⟨placed.distinct, placed.listed, placed.indices⟩,
    ⟨index, _, fun other found here => (reads _ other found here).imp_left .right, [], ?_, by simp⟩,
    fun other apart => ⟨[], ?_, by simp⟩⟩
  · exact ⟨id, id, rfl, fun _ _ => id, waits _, (append_nil _).symm⟩
  · exact ⟨id, id, rfl, fun session found here => (reads other session found here).resolve_left
      fun new => apart new.1, waits other, (append_nil _).symm⟩

theorem startPartitionSession_starts (partitionSession node next : Nat) (state : State) :
    (startPartitionSession partitionSession node next).wp
      (noThrow (Starts partitionSession next state)) state := by
  simp only [startPartitionSession, wp_rules]
  refine wp_then (nodeSession_narrows node state) fun index created narrows => ?_
  have remembers : ∀ middle, Starts partitionSession next state middle →
      (rememberLocation partitionSession node).wp (noThrow (Starts partitionSession next state))
        middle :=
    fun middle starts => wp_then (rememberLocation_narrows partitionSession node middle)
      fun _ _ narrows => starts.quiet narrows.quiet
  simp only [addPartitionSession, wp_rules]
  refine ⟨fun _ => ⟨fun _ => ⟨fun _ => remembers _ ?_, fun _ => trivial⟩, fun _ => trivial⟩,
    fun _ => remembers created (narrows.quiet.starts (.refl _ _ _))⟩
  exact narrows.quiet.starts (startReading_starts created index partitionSession next)

theorem updatePartitionSession_moves (partitionSession node : Nat) (state : State) :
    (updatePartitionSession partitionSession node).wp (noThrow fun after => Quiet state after ∨
      ∃ source next middle, state.readers partitionSession source = some next ∧ Quiet state middle ∧
        middle.readers partitionSession source = none ∧ Starts partitionSession next middle after)
      state := by
  simp only [updatePartitionSession, wp_rules]
  cases state.locations.find partitionSession with
  | none => exact .inl (Narrows.refl state).quiet
  | some oldNode =>
    cases found : state.nodeSessions.find oldNode with
    | none =>
      simp only [found]
      trivial
    | some index =>
      simp only [found, wp_when]
      refine ⟨fun lockable => ?_, fun _ => .inl (Narrows.refl state).quiet⟩
      cases reads : (state.session index).partitionSessions.find partitionSession with
      | none => trivial
      | some next =>
        simp only [wp_bind]
        refine wp_then (deletePartitionSession_drops partitionSession oldNode index state)
          fun _ middle drops => ?_
        refine wp_then (startPartitionSession_starts partitionSession node next middle)
          fun _ after starts => .inr ⟨index, next, middle, reads, drops.1.quiet, ?_, starts⟩
        exact drops.2 (by simpa using lockable)

/-! ## Streams that change -/

theorem Placed.position_iff (placed : Placed state) (found : state.streams[index]? = some stream) :
    state.position partitionSession = index ↔ partitionSession = stream.partitionSession :=
  placed.position_eq_iff (State.started_of_stream found)

theorem Placed.stream_eq (placed : Placed state) (found : state.streams[index]? = some stream) :
    (state.view stream.partitionSession).stream = stream.line := by
  simp [State.view, (placed.position_iff found).mpr rfl, State.lines, found]

theorem State.lines_changeStream (change : PartitionStream → PartitionStream)
    (same : ∀ stream, (change stream).line = stream.line) (state : State) (index : Nat) :
    (state.changeStream index change).lines = state.lines :=
  (map_modify PartitionStream.line same state.streams index).trans (modify_id _ _)

section Change

variable (change : PartitionStream → PartitionStream)
  (same : ∀ stream, (change stream).partitionSession = stream.partitionSession)

include same

theorem State.started_changeStream (state : State) (index : Nat) :
    (state.changeStream index change).started = state.started :=
  (map_modify PartitionStream.partitionSession same state.streams index).trans (modify_id _ _)

theorem Placed.changeStream (placed : Placed state) (index : Nat) :
    Placed (state.changeStream index change) := by
  have started := State.started_changeStream change same state index
  exact ⟨started ▸ placed.distinct, started ▸ placed.listed, started ▸ placed.indices⟩

theorem Placed.view_changeStream (placed : Placed state)
    (found : state.streams[index]? = some stream) (partitionSession : Nat) :
    (state.changeStream index change).view partitionSession =
      { state.view partitionSession with
        stream := if partitionSession = stream.partitionSession then (change stream).line
          else (state.view partitionSession).stream } := by
  have started := State.started_changeStream change same state index
  simp only [State.view, State.position, started, ← placed.position_iff found]
  congr 1
  simp only [State.lines, State.changeStream]
  by_cases here : index = state.started.idxOf partitionSession
  · simp [← here, found]
  · simp [here, Ne.symm here]

end Change

/-- What an event leads to for a partition session. -/
def Leads (env : Environment) (input : Input) (handled : Nat → List Nat) (before after : State) : Prop :=
  Placed after ∧ ∀ partitionSession, Moves env partitionSession input
    ((before.partitionStreams.find partitionSession).bind (before.streams[·]?))
    (before.view partitionSession) (after.view partitionSession) (handled partitionSession)

theorem Quiet.leads (quiet : Quiet before after) (placed : Placed before) :
    Leads env input (fun _ => []) before after :=
  ⟨quiet.placed placed, fun partitionSession => .spares (quiet.spares partitionSession)⟩

theorem Leads.refl (placed : Placed state) : Leads env input (fun _ => []) state state :=
  (Narrows.refl state).quiet.leads placed

theorem confirmPartitionStreamCreate_leads (placed : Placed state)
    (once : ∀ stream ∈ state.streams[index]?, stream.confirmed = false) :
    (confirmPartitionStreamCreate index).wp (noThrow (Leads env input (fun _ => []) state)) state := by
  simp only [confirmPartitionStreamCreate, wp_rules]
  cases found : state.streams[index]? with
  | none => exact .refl placed
  | some stream =>
    simp only [wp_rules]
    refine ⟨fun _ => .refl placed, fun _ => ⟨fun _ => ?_, fun _ => trivial⟩⟩
    refine wp_then (startPartitionSession_starts _ stream.location 1 _) fun _ after starts => ?_
    have view := placed.view_changeStream (fun stream => { stream with confirmed := true })
      (fun _ => rfl) found
    refine ⟨starts.1 (placed.changeStream _ (by simp) index), fun other => ?_⟩
    by_cases here : other = stream.partitionSession
    · have begins := starts.2.1
      subst here
      rw [view, if_pos rfl] at begins
      have line := placed.stream_eq found
      refine .confirms (by rw [line]; exact once stream found) ?_
      rw [View.confirm, line]
      exact begins
    · have spares := starts.2.2 other here
      rw [view, if_neg here] at spares
      exact .spares spares

theorem onUpdatePartitionSession_leads (placed : Placed state) (partitionSession location : Nat) :
    (onUpdatePartitionSession partitionSession location).wp
      (noThrow (Leads env (.onUpdatePartitionSession partitionSession location) (fun _ => []) state))
      state := by
  simp only [onUpdatePartitionSession, wp_rules]
  cases actual : state.partitionStreams.find partitionSession with
  | none => exact .refl placed
  | some index =>
    simp only [wp_rules]
    have relocated : Quiet state (state.changeStream index fun stream => { stream with location }) :=
      Narrows.quiet ⟨state.lines_changeStream _ (by intro; rfl) index, id, .refl _,
        fun _ _ _ => id, rfl, (append_nil _).symm⟩
    refine wp_then (updatePartitionSession_moves partitionSession location _) fun _ after moved => ?_
    rcases moved with quiet | ⟨source, next, middle, reads, quiet, dropped, starts⟩
    · exact (relocated.trans quiet).leads placed
    · have quiet := relocated.trans quiet
      refine ⟨starts.1 (quiet.placed placed), fun other => ?_⟩
      by_cases here : other = partitionSession
      · subst here
        exact .moves location source next _ rfl reads (quiet.spares other) dropped starts.2.1
      · exact .spares ((quiet.spares other).trans (starts.2.2 other here))

/-! ## Sessions that change -/

theorem State.view_changeSession {change : DirectReadSession → DirectReadSession}
    (within : index < state.sessions.length) (partitionSession : Nat) :
    (state.changeSession index change).view partitionSession =
      { state.view partitionSession with
        readers := Function.update (state.readers partitionSession) index
          ((change (state.session index)).partitionSessions.find partitionSession)
        queues := Function.update (state.waiting partitionSession) index
          (idsOf partitionSession (change (state.session index)).incomingMessages) } := by
  have readers : (state.changeSession index change).readers partitionSession =
      Function.update (state.readers partitionSession) index
        ((change (state.session index)).partitionSessions.find partitionSession) := by
    funext other
    rw [State.readers, State.session_changeSession]
    by_cases same : index = other
    · simp [← same, within]
    · simp [same, Ne.symm same, State.readers]
  have waits : (state.changeSession index change).waiting partitionSession =
      Function.update (state.waiting partitionSession) index
        (idsOf partitionSession (change (state.session index)).incomingMessages) := by
    funext other
    rw [State.waiting, State.session_changeSession]
    by_cases same : index = other
    · simp [← same, within]
    · simp [same, Ne.symm same, State.waiting]
  rw [State.view, readers, waits]
  rfl

theorem onDirectReadResponse_leads (placed : Placed state) (index : Nat) (response : Response) :
    (onDirectReadResponse index response).wp
      (noThrow (Leads env (.onDirectReadResponse index response) (fun _ => []) state)) state := by
  simp only [onDirectReadResponse, wp_rules]
  refine ⟨fun open_ => ?_, fun _ => .refl placed⟩
  have within : index < state.sessions.length := by
    simp only [Bool.and_eq_true, decide_eq_true_eq] at open_
    exact open_.1
  have ignored : Leads env (.onDirectReadResponse index response) (fun _ => []) state
      { state with callbacks := state.callbacks ++ [index] } :=
    Quiet.leads (by exact quiet_of_part rfl id) placed
  cases reading : (state.session index).partitionSessions.find response.partitionSession with
  | none => exact ignored
  | some next =>
    simp only [wp_rules]
    refine ⟨fun _ => ignored, fun _ => ⟨fun expected => ?_, fun _ => trivial⟩⟩
    refine ⟨⟨placed.distinct, placed.listed, placed.indices⟩, fun other => ?_⟩
    obtain ⟨partitionSession, id⟩ := response
    obtain rfl : id = next := beq_iff_eq.mp expected
    have view := @State.view_changeSession state index (fun session => { session with
      partitionSessions := session.partitionSessions.insert partitionSession (id + 1)
      incomingMessages := session.incomingMessages ++ [⟨partitionSession, id⟩] }) within other
    by_cases here : other = partitionSession
    · subst here
      refine .reads index id rfl reading (view.trans ?_)
      simp [View.read, State.view, idsOf, State.waiting]
    · refine .spares ((view.trans ?_) ▸ .refl _)
      simp [here, Ne.symm here, idsOf, State.view, State.readers, State.waiting]

theorem Narrows.emits
    (narrows : Narrows before (more.map fun event => (index, event)) after) (partitionSession : Nat) :
    Yields (before.view partitionSession)
      (if before.position partitionSession = index then more else []) (after.view partitionSession) := by
  have yields := narrows.yields partitionSession
  by_cases here : before.position partitionSession = index
  · simpa [here, filter_map, Function.comp_def] using yields
  · have apart : (index == before.position partitionSession) = false := by simpa using Ne.symm here
    simpa [here, apart, filter_map, Function.comp_def] using yields

/-! ## Handling a response -/

/-- Events of one stream are pushed, whether the code returns or throws. -/
abbrev emitting (position : Nat) (pushed : List Event → State → Prop) (state : State) :
    Contract Exception Assertion State Unit :=
  .keeping fun after => ∃ more,
    Narrows state (more.map fun event => (position, event)) after ∧ pushed more after

theorem State.last_eq (state : State) (position : Nat) :
    (state.stream position).lastDirectReadId =
      (state.lines.getD position ⟨0, 0, 1, none, false⟩).lastDirectReadId := by
  rw [State.stream, State.lines, getD_eq_getElem?_getD, getD_eq_getElem?_getD,
    List.getElem?_map]
  cases state.streams[position]? with
  | none => rfl
  | some stream => rfl

theorem stopIfGotLastResponse_emits (position : Nat) (response : Response) (state : State) :
    (stopIfGotLastResponse position response).wp (emitting position (fun more _ =>
      (state.stream position).lastDirectReadId = none → more = []) state) state := by
  have same : Narrows state (([] : List Event).map fun event => (position, event)) state := .refl state
  simp only [stopIfGotLastResponse, wp_rules]
  cases last : (state.stream position).lastDirectReadId with
  | none => exact ⟨[], same, fun _ => rfl⟩
  | some lastId =>
    rw [wp_when]
    refine ⟨fun _ => ?_, fun _ => ⟨[], same, fun _ => rfl⟩⟩
    refine wp_mono (stopPartitionSessionImpl_pushes position _ state)
      (fun _ after pushes => ?_) (by simp)
    obtain ⟨more, narrows, _⟩ := pushes
    exact ⟨more, narrows, by simp⟩

theorem onReadDoneImpl_emits (position : Nat) (response : Response) (state : State) :
    (onReadDoneImpl env position response).wp (emitting position (fun more after => .stop ∉ more ∧
      (after.running = true → env.payload response.partitionSession response.directReadId = .data →
        .data response.directReadId ∈ more)) state) state := by
  have same : Narrows state (([] : List Event).map fun event => (position, event)) state := .refl state
  simp only [onReadDoneImpl, wp_rules]
  refine ⟨fun _ => ?_, fun stands => ⟨[], same, by simp, fun runs => by simp [runs] at stands⟩⟩
  cases env.payload response.partitionSession response.directReadId with
  | data =>
    refine wp_mono (pushOrAbort_pushes position _ state) (fun _ after pushes => ?_) (by simp)
    obtain ⟨more, narrows, only, runs⟩ := pushes
    have quiet : .stop ∉ more := fun stop => by simpa using only stop
    exact ⟨more, narrows, quiet, fun running _ => by simp [runs running]⟩
  | _ => exact ⟨[], same, by simp, by simp⟩

theorem handle_emits (position : Nat) (response : Response) (state : State) :
    (if env.payload response.partitionSession response.directReadId = .empty then
        stopIfGotLastResponse position response
      else do
        onReadDoneImpl env position response
        stopIfGotLastResponse position response).wp
      (emitting position (fun more after =>
        ((state.stream position).lastDirectReadId = none → .stop ∉ more) ∧
        (after.running = true → env.payload response.partitionSession response.directReadId = .data →
          .data response.directReadId ∈ more)) state) state := by
  rw [wp_ite]
  constructor
  · intro empty
    refine wp_mono (stopIfGotLastResponse_emits position response state) ?_ ?_
    all_goals
      rintro _ after ⟨more, narrows, none⟩
      exact ⟨more, narrows, fun last => by simp [none last], fun _ hasData => by simp [empty] at hasData⟩
  · intro _
    rw [wp_bind]
    refine wp_mono (onReadDoneImpl_emits position response state) ?_ ?_
    · rintro _ middle ⟨more, narrows, quiet, handed⟩
      have last : (middle.stream position).lastDirectReadId = (state.stream position).lastDirectReadId := by
        rw [State.last_eq, State.last_eq, narrows.lines]
      refine wp_mono (stopIfGotLastResponse_emits position response middle) ?_ ?_
      all_goals
        rintro _ after ⟨others, alsoNarrows, none⟩
        refine ⟨more ++ others, map_append ▸ narrows.trans alsoNarrows, fun noLast => ?_,
          fun runs hasData => mem_append_left _ (handed (alsoNarrows.running runs) hasData)⟩
        simp [quiet, none (last.trans noLast)]
    · rintro _ after ⟨more, narrows, quiet, handed⟩
      exact ⟨more, narrows, fun _ => quiet, handed⟩

/-- The response that the control session processes in a reaction. -/
def State.handles (state : State) : Input → List Response
  | .onDirectReadDone callback =>
    match state.callbacks[callback]? with
    | none => []
    | some index =>
      match (state.session index).incomingMessages with
      | [] => []
      | response :: _ =>
        if (state.partitionStreams.find response.partitionSession).isSome then [response] else []
  | _ => []

def State.dequeue (state : State) (index : Nat) (rest : List Response) : State :=
  state.changeSession index fun session => { session with incomingMessages := rest }

theorem State.view_dequeue (incoming : (state.session index).incomingMessages = response :: rest)
    (partitionSession : Nat) :
    (state.dequeue index rest).view partitionSession =
        (state.view partitionSession).take index (idsOf partitionSession rest) ∧
      (state.view partitionSession).queues index =
        (if response.partitionSession = partitionSession then [response.directReadId] else []) ++
          idsOf partitionSession rest := by
  have within : index < state.sessions.length := by
    by_contra beyond
    simp [State.session, beyond] at incoming
  constructor
  · rw [State.dequeue, State.view_changeSession within]
    simp [View.take, State.view, State.readers]
  · change idsOf partitionSession (state.session index).incomingMessages = _
    by_cases same : response.partitionSession = partitionSession
    · simp [incoming, idsOf, same]
    · simp [incoming, idsOf, same]

theorem Placed.emits {more : List Event} (placed : Placed state)
    (found : state.streams[position]? = some stream) (change : PartitionStream → PartitionStream)
    (same : ∀ stream, (change stream).partitionSession = stream.partitionSession)
    (narrows : Narrows (state.changeStream position change)
      (more.map fun event => (position, event)) after) :
    Placed after ∧ Yields { state.view stream.partitionSession with stream := (change stream).line }
        more (after.view stream.partitionSession) ∧
      ∀ other, other ≠ stream.partitionSession → Spares (state.view other) (after.view other) := by
  have started := State.started_changeStream change same state position
  have view := placed.view_changeStream change same found
  have place : ∀ other, (state.changeStream position change).position other = position ↔
      other = stream.partitionSession := by
    intro other
    rw [State.position, started]
    exact placed.position_iff found
  refine ⟨narrows.placed (placed.changeStream change same position) fun entry member => ?_, ?_,
    fun other apart => ⟨[], ?_, by simp⟩⟩
  · obtain ⟨event, _, rfl⟩ := mem_map.mp member
    rw [started]
    exact (List.getElem?_eq_some_iff.mp (State.started_of_stream found)).1
  · have yields := narrows.emits stream.partitionSession
    rwa [if_pos ((place _).mpr rfl), view, if_pos rfl] at yields
  · have yields := narrows.emits other
    rwa [if_neg fun here => apart ((place other).mp here), view, if_neg apart] at yields

theorem idsOf_singleton (partitionSession : Nat) (response : Response) :
    idsOf partitionSession [response] =
      if response.partitionSession = partitionSession then [response.directReadId] else [] := by
  by_cases same : response.partitionSession = partitionSession
  · simp [idsOf, same]
  · simp [idsOf, same]

theorem View.take_same {view : View} (same : view.queues index = [] ++ waits) :
    view.take index waits = view := by
  rw [View.take, ← nil_append waits, ← same, Function.update_eq_self]

section

variable (placed : Placed state)
include placed

theorem Placed.handles {more : List Event}
    (incoming : (state.session index).incomingMessages = response :: rest)
    (found : state.partitionStreams.find response.partitionSession = some position)
    (narrows : Narrows ((state.dequeue index rest).changeStream position fun stream =>
        { stream with nextDirectReadId := response.directReadId + 1 })
      (more.map fun event => (position, event)) after)
    (quiet : (((state.dequeue index rest).changeStream position fun stream =>
        { stream with nextDirectReadId := response.directReadId + 1 }).stream
          position).lastDirectReadId = none → .stop ∉ more)
    (handed : after.running = true →
      env.payload response.partitionSession response.directReadId = .data →
        .data response.directReadId ∈ more) :
    Leads env input (fun partitionSession => idsOf partitionSession [response]) state after := by
  obtain ⟨session, id⟩ := response
  obtain ⟨_, actual, stream, here, rfl, line⟩ := placed.found found
  have dequeued : Placed (state.dequeue index rest) := ⟨placed.distinct, placed.listed, placed.indices⟩
  obtain ⟨placedAfter, yields, others⟩ := dequeued.emits here _ (by simp) narrows
  refine ⟨placedAfter, fun partitionSession => ?_⟩
  obtain ⟨view, waits⟩ := @State.view_dequeue state index _ rest incoming partitionSession
  simp only [idsOf_singleton]
  by_cases own : stream.partitionSession = partitionSession
  · rw [if_pos own] at waits ⊢
    subst own
    refine .handles index id _ more waits actual ?_ (fun last => quiet ?_) handed
    · rw [view] at yields
      rw [View.take]
      rw [line]
      exact yields
    · rw [line] at last
      simpa [State.stream, State.changeStream, State.dequeue, State.changeSession, here,
        PartitionStream.line] using last
  · rw [if_neg own] at waits ⊢
    have spares := others partitionSession (.symm own)
    rw [view, View.take_same waits] at spares
    exact .spares spares

theorem Placed.drops (incoming : (state.session index).incomingMessages = response :: rest)
    (unknown : state.partitionStreams.find response.partitionSession = none) :
    Leads env input (fun _ => []) state (state.dequeue index rest) := by
  refine ⟨⟨placed.distinct, placed.listed, placed.indices⟩, fun partitionSession => ?_⟩
  obtain ⟨view, waits⟩ := @State.view_dequeue state index response rest incoming partitionSession
  by_cases own : response.partitionSession = partitionSession
  · subst own
    rw [if_pos rfl] at waits
    refine .drops index _ _ waits (fun actual => ?_) view
    by_cases known : response.partitionSession ∈ state.started
    · exact absurd rfl (Assoc.find_eq_none.mp unknown _ (actual known))
    · have beyond : state.streams.length ≤ state.position response.partitionSession := by
        refine Nat.le_of_eq ?_
        rw [State.position, idxOf_eq_length known, State.started, length_map]
      simp [State.view, State.lines, beyond]
  · rw [if_neg own] at waits
    rw [view, View.take_same waits]
    exact .spares (.refl _)

theorem onDirectReadDone_leads (callback : Nat) : (react env (.onDirectReadDone callback)).wp
      (.keeping (Leads env (.onDirectReadDone callback) (fun partitionSession =>
        idsOf partitionSession (state.handles (.onDirectReadDone callback))) state)) state := by
  simp only [react, State.handles, wp_rules]
  cases state.callbacks[callback]? with
  | none => exact .refl placed
  | some index =>
    have called : Placed { state with callbacks := state.callbacks.eraseIdx callback } :=
      ⟨placed.distinct, placed.listed, placed.indices⟩
    simp only [wp_rules]
    change Code.wp (match (state.session index).incomingMessages with | [] => _ | _ :: _ => _) _ _
    cases incoming : (state.session index).incomingMessages with
    | nil => exact Quiet.leads (by exact quiet_of_part rfl id) placed
    | cons response rest =>
      simp only [onDirectReadResponseDone, wp_rules, State.changeSession]
      cases found : state.partitionStreams.find response.partitionSession with
      | none => exact called.drops incoming found
      | some position =>
        refine wp_mono (handle_emits position response _) ?_ ?_
        all_goals
          rintro _ after ⟨more, narrows, quiet, handed⟩
          exact called.handles incoming found narrows quiet handed

theorem onStopPartitionSessionRequest_leads (partitionSession last : Nat) (graceful : Bool) :
    (onStopPartitionSessionRequest partitionSession graceful last).wp
      (noThrow (Leads env (.onStopPartitionSessionRequest partitionSession graceful last)
        (fun _ => []) state)) state := by
  simp only [onStopPartitionSessionRequest, wp_rules]
  cases found : state.partitionStreams.find partitionSession with
  | none => exact .refl placed
  | some position =>
    obtain ⟨_, actual, stream, here, rfl, line⟩ := placed.found found
    have next : ((state.changeStream position fun stream =>
        { stream with lastDirectReadId := some last }).stream position).nextDirectReadId =
          stream.nextDirectReadId := by
      simp [State.stream, State.changeStream, here]
    have stops : ∀ after more, Narrows (state.changeStream position fun stream =>
          { stream with lastDirectReadId := some last })
        (more.map fun event => (position, event)) after →
        (last ≤ stream.nextDirectReadId → after.running = true → more = [.stop]) →
        Leads env (.onStopPartitionSessionRequest stream.partitionSession true last) (fun _ => [])
          state after := by
      intro after more narrows stopped
      obtain ⟨placedAfter, yields, others⟩ := placed.emits here _ (by simp) narrows
      refine ⟨placedAfter, fun other => ?_⟩
      by_cases own : other = stream.partitionSession
      · subst own
        refine .stops last stream more rfl (by rw [found]; exact here) line actual ?_
          (by rw [line]; exact stopped)
        rw [View.setLast, line]
        exact yields
      · exact .spares (others other own)
    simp only [wp_rules, next]
    refine ⟨fun isGraceful => ⟨fun _ => ?_, fun beyond => ?_⟩, fun notGraceful => ?_⟩
    · subst isGraceful
      refine wp_then (stopPartitionSessionImpl_pushes position _ _) fun _ after pushes => ?_
      obtain ⟨more, narrows, _, runs⟩ := pushes
      exact stops after more narrows fun _ => runs
    · subst isGraceful
      exact stops _ [] (.refl _) fun reached => absurd reached (of_decide_eq_false beyond)
    · exact wp_then (stopPartitionSessionImpl_quiet
        (List.getElem?_eq_some_iff.mp (State.started_of_stream here)).1) fun _ after quiet =>
          quiet.leads placed

/-! ## A partition session starts -/

def State.addStream (state : State) (partitionSession location : Nat) : State :=
  { state with
    streams := state.streams ++ [{ partitionSession, location }]
    partitionStreams := state.partitionStreams.insert partitionSession state.streams.length }

omit placed in
theorem State.started_addStream (state : State) (partitionSession location : Nat) :
    (state.addStream partitionSession location).started = state.started ++ [partitionSession] := by
  simp [State.started, State.addStream]

theorem Placed.addStream (fresh : partitionSession ∉ state.started)
    (location : Nat) : Placed (state.addStream partitionSession location) := by
  have started := state.started_addStream partitionSession location
  have length : state.streams.length = state.started.length := (length_map _).symm
  refine ⟨?_, fun entry member => ?_, fun entry member => ?_⟩
  · rw [started, nodup_append]
    refine ⟨placed.distinct, by simp, ?_⟩
    intro other member new single same
    exact fresh (mem_singleton.mp single ▸ same ▸ member)
  · rw [started]
    rcases Assoc.mem_insert.mp member with rfl | ⟨old, _⟩
    · simp [length]
    · have found := placed.listed entry old
      rw [List.getElem?_append_left (List.getElem?_eq_some_iff.mp found).1, found]
  · rw [started, length_append]
    exact Nat.lt_add_right _ (placed.indices entry member)

theorem Placed.spares_addStream (fresh : partitionSession ∉ state.started) (location other : Nat) :
    Spares (state.view other) ((state.addStream partitionSession location).view other) := by
  have started := state.started_addStream partitionSession location
  have length : state.streams.length = state.started.length := (length_map _).symm
  by_cases known : other ∈ state.started
  · have position : (state.addStream partitionSession location).position other =
        state.position other := by
      rw [State.position, started, idxOf_append_of_mem known]
      rfl
    have within : state.position other < state.streams.length :=
      length ▸ idxOf_lt_length_iff.mpr known
    refine ⟨[], ⟨id, fun actual _ => ?_, ?_, fun _ _ => id, rfl, ?_⟩, by simp⟩
    · have listed := actual (by rw [started]; exact mem_append_left _ known)
      rw [position] at listed
      exact ((Assoc.mem_insert.mp listed).resolve_left fun new =>
        fresh ((Prod.mk.inj new).1 ▸ known)).1
    · simp only [State.view, position]
      simp [State.lines, State.addStream, List.getElem?_append_left, within]
    · rw [append_nil, State.view, position]
      rfl
  · -- The position of a partition session that is not started is behind all streams.
    have nothing : ∀ index, state.started.length ≤ index → state.pushedFor index = [] := by
      intro index beyond
      rw [State.pushedFor, map_eq_nil_iff, filter_eq_nil_iff]
      intro entry member same
      have within := placed.indices entry member
      rw [beq_iff_eq.mp same] at within
      omega
    have before : state.position other = state.started.length := idxOf_eq_length known
    have after : (state.addStream partitionSession location).position other =
        state.started.length + if other = partitionSession then 0 else 1 := by
      rw [State.position, started, idxOf_append_of_notMem known]
      by_cases own : other = partitionSession
      · simp [own]
      · simp [own]
    refine ⟨[], ⟨id, fun _ unknown => absurd unknown known, ?_, fun _ _ => id, rfl, ?_⟩, by simp⟩
    · simp only [State.view, before, after]
      by_cases own : other = partitionSession
      · simp [own, State.lines, State.addStream, ← length, PartitionStream.line]
      · simp [own, State.lines, State.addStream, ← length]
    · rw [State.view, State.view, before, after, nothing _ (Nat.le_refl _)]
      exact nothing _ (Nat.le_add_right _ _)

theorem onStartPartitionSessionRequest_leads
    (fresh : partitionSession ∉ state.started) (location : Nat) :
    (onStartPartitionSessionRequest partitionSession location).wp
      (noThrow (Leads env input (fun _ => []) state)) state := by
  have unknown : state.partitionStreams.find partitionSession = none := by
    rw [Assoc.find_eq_none]
    intro entry member same
    exact fresh (same ▸ mem_of_getElem? (placed.listed entry member))
  simp only [onStartPartitionSessionRequest, wp_bind, wp_read, unknown, wp_pure]
  have same : Quiet (state.addStream partitionSession location) _ := (Narrows.refl _).quiet
  refine wp_then (pushOrAbort_quiet same (by simp [State.started, State.addStream]) (by simp))
    fun _ after quiet => ?_
  exact ⟨quiet.placed (placed.addStream fresh location), fun other =>
    .spares ((placed.spares_addStream fresh location other).trans (quiet.spares other))⟩

def StartsOnce (state : State) : Input → Prop
  | .onStartPartitionSessionRequest partitionSession _ => partitionSession ∉ state.started
  | .confirmPartitionStreamCreate index =>
    ∀ stream ∈ state.streams[index]?, stream.confirmed = false
  | _ => True

theorem onReadDone_leads {handler : Reader Unit}
    (handled : handler.wp (noThrow (Leads env input (fun _ => []) state)) state) :
    (onReadDone handler).wp (.keeping (Leads env input (fun _ => []) state)) state := by
  simp only [onReadDone, wp_rules]
  exact ⟨fun _ => wp_mono handled (fun _ _ => id) (by simp), fun _ => .refl placed⟩

theorem react_leads (once : StartsOnce state input) :
    (react env input).wp (.keeping (Leads env input (fun partitionSession =>
      idsOf partitionSession (state.handles input)) state)) state := by
  cases input with
  | onStartPartitionSessionRequest partitionSession location =>
    exact onReadDone_leads placed (onStartPartitionSessionRequest_leads placed once location)
  | onUpdatePartitionSession partitionSession location =>
    exact onReadDone_leads placed (onUpdatePartitionSession_leads placed partitionSession location)
  | onStopPartitionSessionRequest partitionSession graceful last =>
    exact onReadDone_leads placed
      (onStopPartitionSessionRequest_leads placed partitionSession last graceful)
  | confirmPartitionStreamCreate index =>
    exact wp_mono (confirmPartitionStreamCreate_leads placed once) (fun _ _ => id) nofun
  | onDirectReadResponse session response =>
    exact wp_mono (onDirectReadResponse_leads placed session response) (fun _ _ => id) nofun
  | onDirectReadDone callback => exact onDirectReadDone_leads placed callback
  | _ =>
    exact wp_mono (react_quiet placed rfl) (fun _ _ quiet => Quiet.leads quiet placed) nofun

end

theorem State.waiting_eq_nil (clear : ∀ session ∈ state.sessions, ∀ response ∈ session.incomingMessages,
      response.partitionSession ≠ partitionSession) (index : Nat) :
    state.waiting partitionSession index = [] := by
  rw [State.waiting, idsOf, map_eq_nil_iff, filter_eq_nil_iff, State.session,
    getD_eq_getElem?_getD]
  intro response member same
  cases found : state.sessions[index]? with
  | none => simp [found] at member
  | some session =>
    rw [found] at member
    exact clear session (mem_of_getElem? found) response member (beq_iff_eq.mp same)

theorem placed_start : Placed {} := ⟨List.nodup_nil, nofun, nofun⟩

theorem settled_start (partitionSession : Nat) : Settled (State.view {} partitionSession) :=
  ⟨fun _ _ _ _ read => by simp [State.view, State.readers, State.session] at read,
    fun _ => ⟨rfl, fun _ => rfl, fun _ => rfl⟩⟩

end YdbSdk.Topic.DirectRead
