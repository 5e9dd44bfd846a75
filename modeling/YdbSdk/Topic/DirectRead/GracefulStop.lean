import YdbSdk.Topic.DirectRead.Handling

namespace YdbSdk.Topic.DirectRead

open YdbSdk.Control YdbSdk.Data List

/-! # The stop event of a partition session -/

variable {env : Environment} {state : State} {first second : View} {stream : PartitionStream}
  {partitionSession index next id bound : Nat} {input : Input} {more : List Event}

/-- There is one stop event, after the data of all responses up to the last one. -/
def StopsAfter (env : Environment) (partitionSession lastDirectReadId : Nat) (events : List Event) :
    Prop :=
  ∃ earlier later, events = earlier ++ .stop :: later ∧ .stop ∉ earlier ∧ .stop ∉ later ∧
    ∀ id, 1 ≤ id → id ≤ lastDirectReadId → env.payload partitionSession id = .data →
      .data id ∈ earlier

theorem StopsAfter.append
    (stops : StopsAfter env partitionSession last events) (quiet : .stop ∉ more) :
    StopsAfter env partitionSession last (events ++ more) := by
  obtain ⟨earlier, later, split, noEarlier, noLater, data⟩ := stops
  refine ⟨earlier, later ++ more, ?_, noEarlier, ?_, data⟩
  · rw [split, append_assoc, cons_append]
  · rw [mem_append]
    exact fun stop => stop.elim noLater quiet

/-- The responses with smaller ids were read, and no others; while nothing is stopped, each of
them waits or its data was pushed. -/
structure Bounded (env : Environment) (partitionSession : Nat) (view : View) (bound : Nat) :
    Prop where
  positive : 1 ≤ bound
  next : view.stream.nextDirectReadId ≤ bound
  queued : ∀ index, ∀ id ∈ view.queues index, id < bound
  kept : view.running = true → view.actual → view.stream.lastDirectReadId = none →
    ∀ id, 1 ≤ id → id < bound → (∃ index, id ∈ view.queues index) ∨
      (env.payload partitionSession id = .data → .data id ∈ view.pushed)

structure Orderly (env : Environment) (partitionSession : Nat) (view : View) : Prop where
  first : view.stream.confirmed = false → ∀ last, view.stream.lastDirectReadId = some last → last = 0
  bounded : ∃ bound, Bounded env partitionSession view bound ∧
    ∀ index next, view.readers index = some next → next = bound
  unstopped : view.stream.lastDirectReadId = none → .stop ∉ view.pushed
  stopped : ∀ last, view.stream.lastDirectReadId = some last →
    (∀ index next, view.readers index = some next → last < next) ∧
    (∀ index, view.queues index = []) ∧
    (view.running = true → StopsAfter env partitionSession last view.pushed)

theorem Bounded.spares (bounded : Bounded env partitionSession first bound)
    (spares : Spares first second) : Bounded env partitionSession second bound := by
  obtain ⟨more, yields, _⟩ := spares
  refine ⟨bounded.positive, yields.stream ▸ bounded.next, yields.queues ▸ bounded.queued, ?_⟩
  rw [yields.stream, yields.queues, yields.pushed]
  intro running actual unstopped id positive below
  refine (bounded.kept (yields.running running) (yields.actual actual) unstopped id positive
    below).imp_right fun handed hasData => mem_append_left _ (handed hasData)

section

variable (orderly : Orderly env partitionSession first)
include orderly

theorem Orderly.spares (spares : Spares first second) : Orderly env partitionSession second := by
  obtain ⟨bound, bounded, reads⟩ := orderly.bounded
  have still := bounded.spares spares
  obtain ⟨more, yields, quiet⟩ := spares
  refine ⟨yields.stream ▸ orderly.first, ⟨bound, still, fun index next read =>
    reads index next (yields.readers _ _ read)⟩, ?_, ?_⟩
  · rw [yields.stream, yields.pushed, mem_append]
    exact fun unstopped stop => stop.elim (orderly.unstopped unstopped) quiet
  · rw [yields.stream, yields.queues, yields.pushed]
    intro last found
    obtain ⟨below, queued, stops⟩ := orderly.stopped last found
    exact ⟨fun index next read => below index next (yields.readers _ _ read), queued,
      fun running => (stops (yields.running running)).append quiet⟩

theorem Orderly.begins
    (begins : first.Begins next second) (nobody : ∀ index, first.readers index = none)
    (bounded : Bounded env partitionSession first next)
    (above : ∀ last, first.stream.lastDirectReadId = some last → last < next) :
    Orderly env partitionSession second := by
  obtain ⟨index, readers, found, spares⟩ := begins.reader nobody
  have began : Orderly env partitionSession { first with readers } := by
    refine ⟨orderly.first, ⟨next, ⟨bounded.positive, bounded.next, bounded.queued, bounded.kept⟩,
      fun other bound read => (found other bound read).2⟩, orderly.unstopped, fun last stopped => ?_⟩
    obtain ⟨_, queued, stops⟩ := orderly.stopped last stopped
    exact ⟨fun other bound read => (found other bound read).2 ▸ above last stopped, queued, stops⟩
  exact began.spares spares

theorem Orderly.confirms (settled : Settled first)
    (once : first.stream.confirmed = false) (begins : first.confirm.Begins 1 second) :
    Orderly env partitionSession second := by
  obtain ⟨next, nobody, empty⟩ := settled.unconfirmed once
  have confirmed : Orderly env partitionSession first.confirm := by
    obtain ⟨bound, bounded, reads⟩ := orderly.bounded
    exact ⟨nofun, ⟨bound, ⟨bounded.positive, bounded.next, bounded.queued, bounded.kept⟩, reads⟩,
      orderly.unstopped, orderly.stopped⟩
  refine confirmed.begins begins nobody ⟨Nat.le_refl 1, Nat.le_of_eq next, ?_, ?_⟩ ?_
  · intro index id member
    have queued : id ∈ first.queues index := member
    simp [empty index] at queued
  · omega
  · intro last stopped
    rw [orderly.first once last stopped]
    exact Nat.one_pos

theorem Orderly.moves
    (settled : Settled first) (reads : first.readers source = some next)
    (spares : Spares first middle) (dropped : middle.readers source = none)
    (begins : middle.Begins next second) : Orderly env partitionSession second := by
  obtain ⟨bound, bounded, same⟩ := orderly.bounded
  refine (orderly.spares spares).begins begins (settled.nobody reads spares dropped)
    (same source next reads ▸ bounded.spares spares) fun last stopped => ?_
  obtain ⟨more, yields, _⟩ := spares
  exact (orderly.stopped last (yields.stream ▸ stopped)).1 source next reads

theorem Orderly.reads (settled : Settled first) (expected : first.readers index = some next)
    (promised : ∀ last, first.stream.lastDirectReadId = some last → next ≤ last) :
    Orderly env partitionSession (first.read index next) := by
  obtain ⟨bound, bounded, reads⟩ := orderly.bounded
  obtain rfl := reads index next expected
  have noLast : first.stream.lastDirectReadId = none := by
    cases last : first.stream.lastDirectReadId with
    | none => rfl
    | some lastId =>
      have below := (orderly.stopped lastId last).1 index next expected
      have reached := promised lastId last
      omega
  have nextBelow := bounded.next
  have queued : ∀ session id, id ∈ (first.read index next).queues session ↔
      id ∈ first.queues session ∨ session = index ∧ id = next := by
    intro session id
    by_cases here : session = index
    · simp [here]
    · simp [here]
  refine ⟨orderly.first, ⟨next + 1, ⟨by omega, Nat.le_succ_of_le nextBelow, ?_, ?_⟩, ?_⟩,
    orderly.unstopped, ?_⟩
  · intro session id member
    rcases (queued session id).mp member with before | ⟨_, rfl⟩
    · exact Nat.lt_succ_of_lt (bounded.queued session id before)
    · exact Nat.lt_succ_self _
  · intro running actual unstopped id positive below
    simp only [queued]
    rcases Nat.lt_succ_iff_lt_or_eq.mp below with earlier | rfl
    · rcases bounded.kept running actual unstopped id positive earlier with ⟨session, waits⟩ | handed
      · exact .inl ⟨session, .inl waits⟩
      · exact .inr handed
    · exact .inl ⟨index, .inr ⟨rfl, rfl⟩⟩
  · intro session bound read
    exact (settled.reader_read expected read).2
  · intro last stopped
    exact nomatch noLast.symm.trans stopped

theorem Orderly.unstopped_of_waits
    (waits : first.queues index = id :: rest) : first.stream.lastDirectReadId = none := by
  cases last : first.stream.lastDirectReadId with
  | none => rfl
  | some lastId => simp [(orderly.stopped lastId last).2.1 index] at waits

omit orderly in
theorem View.waits_take (waits : first.queues index = id :: rest) :
    (∀ session, other ∈ (first.take index rest).queues session → other ∈ first.queues session) ∧
      ∀ session, other ∈ first.queues session →
        other = id ∨ ∃ session, other ∈ (first.take index rest).queues session := by
  constructor
  · intro session member
    by_cases here : session = index
    · subst here
      rw [waits]
      exact mem_cons_of_mem _ (by simpa using member)
    · simpa [here] using member
  · intro session member
    by_cases here : session = index
    · subst here
      rw [waits] at member
      exact (mem_cons.mp member).imp_right fun later => ⟨session, by simpa using later⟩
    · exact .inr ⟨session, by simpa [here] using member⟩

theorem Orderly.handles
    (waits : first.queues index = id :: rest) (actual : first.actual)
    (yields : Yields ((first.take index rest).setNext (id + 1)) more second) (quiet : .stop ∉ more)
    (handed : second.running = true → env.payload partitionSession id = .data → .data id ∈ more) :
    Orderly env partitionSession second := by
  obtain ⟨bound, bounded, reads⟩ := orderly.bounded
  have noLast := orderly.unstopped_of_waits waits
  have last : second.stream.lastDirectReadId = none := by
    rw [yields.stream]
    exact noLast
  refine ⟨fun _ => by simp [last], ⟨bound, ⟨bounded.positive, ?_, ?_, ?_⟩, fun session next read =>
    reads session next (yields.readers _ _ read)⟩, fun _ => ?_, fun lastId => by simp [last]⟩
  · rw [yields.stream]
    exact bounded.queued index id (by simp [waits])
  · rw [yields.queues]
    exact fun session other member => bounded.queued session other ((View.waits_take waits).1 _ member)
  · rw [yields.queues, yields.pushed]
    intro runs _ _ other positive below
    rcases bounded.kept (yields.running runs) actual noLast other positive below
      with ⟨session, member⟩ | handedBefore
    · rcases (View.waits_take waits).2 session member with rfl | stays
      · exact .inr fun hasData => mem_append_right _ (handed runs hasData)
      · exact .inl stays
    · exact .inr fun hasData => mem_append_left _ (handedBefore hasData)
  · rw [yields.pushed, mem_append]
    exact fun stop => stop.elim (orderly.unstopped noLast) quiet

theorem Orderly.drops
    (waits : first.queues index = id :: rest) (gone : ¬ first.actual) :
    Orderly env partitionSession (first.take index rest) := by
  obtain ⟨bound, bounded, reads⟩ := orderly.bounded
  have noLast := orderly.unstopped_of_waits waits
  refine ⟨orderly.first, ⟨bound, ⟨bounded.positive, bounded.next, fun session other member =>
    bounded.queued session other ((View.waits_take waits).1 _ member), fun _ actual =>
      absurd actual gone⟩, reads⟩, orderly.unstopped, fun lastId stopped => ?_⟩
  exact nomatch noLast.symm.trans stopped

theorem Orderly.stops
    (actual : first.actual) (yields : Yields (first.setLast last) more second)
    (stopped : second.running = true → more = [.stop])
    (unstopped : first.stream.lastDirectReadId = none)
    (reached : last < first.stream.nextDirectReadId) (empty : ∀ index, first.queues index = [])
    (unconfirmed : first.stream.confirmed = false → first.stream.nextDirectReadId = 1) :
    Orderly env partitionSession second := by
  obtain ⟨bound, bounded, reads⟩ := orderly.bounded
  have nextBelow := bounded.next
  have lastNow : second.stream.lastDirectReadId = some last := by
    rw [yields.stream]
    rfl
  have nothing : second.queues = first.queues := yields.queues
  refine ⟨?_, ⟨bound, ⟨bounded.positive, ?_, ?_, ?_⟩, fun session next read =>
    reads session next (yields.readers _ _ read)⟩, fun none => by simp [lastNow] at none, ?_⟩
  · rw [yields.stream]
    intro notConfirmed lastId same
    cases same
    have first := unconfirmed notConfirmed
    omega
  · rw [yields.stream]
    exact nextBelow
  · rw [nothing]
    exact bounded.queued
  · intro _ _ none
    simp [lastNow] at none
  · intro lastId same
    obtain rfl : last = lastId := Option.some.inj (lastNow.symm.trans same)
    refine ⟨fun session next read => ?_, nothing ▸ empty, fun runs => ?_⟩
    · have bound := reads session next (yields.readers _ _ read)
      omega
    · rw [yields.pushed, stopped runs]
      refine ⟨_, [], rfl, orderly.unstopped unstopped, by simp, ?_⟩
      intro id positive atMost hasData
      rcases bounded.kept (yields.running runs) actual unstopped id positive (by omega)
        with ⟨session, waits⟩ | handed
      · simp [empty session] at waits
      · exact handed hasData

end

/-- What the server and the user keep to: a partition session is started once and
confirmed once, and a graceful stop comes once and after it only responses up to the last
id. -/
def Promised (state : State) : Input → Prop
  | .onStartPartitionSessionRequest partitionSession _ => partitionSession ∉ state.started
  | .confirmPartitionStreamCreate index =>
    ∀ stream ∈ state.streams[index]?, stream.confirmed = false
  | .onDirectReadResponse _ response =>
    ∀ stream ∈ state.streams, stream.partitionSession = response.partitionSession →
      ∀ last ∈ stream.lastDirectReadId, response.directReadId ≤ last
  | .onStopPartitionSessionRequest partitionSession true _ =>
    ∀ position ∈ state.partitionStreams.find partitionSession,
      ∀ stream ∈ state.streams[position]?, stream.lastDirectReadId = none
  | _ => True

/-- No data is refused, and a graceful stop comes when the last response was handled and
none is queued. -/
def StopsLate (env : Environment) (state : State) : Input → Prop
  | .onDirectReadResponse _ response =>
    env.payload response.partitionSession response.directReadId ≠ .refused
  | .onStopPartitionSessionRequest partitionSession true lastDirectReadId =>
    (∀ position ∈ state.partitionStreams.find partitionSession,
      ∀ stream ∈ state.streams[position]?, lastDirectReadId < stream.nextDirectReadId) ∧
    ∀ session ∈ state.sessions, ∀ response ∈ session.incomingMessages,
      response.partitionSession ≠ partitionSession
  | _ => True

instance (state : State) (input : Input) : Decidable (Promised state input) := by
  unfold Promised
  split <;> infer_instance

instance (env : Environment) (state : State) (input : Input) :
    Decidable (StopsLate env state input) := by
  unfold StopsLate
  split <;> infer_instance

theorem Promised.once (promised : Promised state input) : StartsOnce state input := by
  cases input with
  | onStartPartitionSessionRequest | confirmPartitionStreamCreate => exact promised
  | _ => trivial

theorem State.last_of_view
    (stopped : (state.view partitionSession).stream.lastDirectReadId = some last) :
    ∃ stream ∈ state.streams, stream.partitionSession = partitionSession ∧
      last ∈ stream.lastDirectReadId := by
  simp only [State.view, State.lines] at stopped
  cases found : state.streams[state.position partitionSession]? with
  | none => simp [found] at stopped
  | some stream =>
    have within := (List.getElem?_eq_some_iff.mp (State.started_of_stream found)).1
    have here := List.getElem?_idxOf (idxOf_lt_length_iff.mp within)
    refine ⟨stream, mem_of_getElem? found, ?_, by
      simpa [found, PartitionStream.line] using stopped⟩
    exact Option.some.inj ((State.started_of_stream found).symm.trans here)

theorem Orderly.react {after : State}
    (orderly : Orderly env partitionSession (state.view partitionSession))
    (settled : Settled (state.view partitionSession)) (promised : Promised state input)
    (late : StopsLate env state input) (leads : Leads env input handled state after) :
    Orderly env partitionSession (after.view partitionSession) := by
  have moves := leads.2 partitionSession
  generalize handled partitionSession = ids at moves
  cases moves with
  | spares spares => exact orderly.spares spares
  | confirms once begins => exact orderly.confirms settled once begins
  | moves location source next middle named reads spares dropped begins =>
    exact orderly.moves settled reads spares dropped begins
  | reads index next named expected same =>
    subst named
    rw [same]
    refine orderly.reads settled expected fun last stopped => ?_
    obtain ⟨stream, member, own, last⟩ := State.last_of_view stopped
    exact promised stream member own _ last
  | handles index id rest more waits actual yields quiet handed =>
    exact orderly.handles waits actual yields (quiet (orderly.unstopped_of_waits waits)) handed
  | drops index id rest waits gone same =>
    rw [same]
    refine orderly.drops waits fun actual => ?_
    simp [settled.confirmed_of_waits waits] at gone
    exact gone actual
  | stops last stream more named here line actual yields stopped =>
    subst named
    obtain ⟨position, found, here⟩ := Option.bind_eq_some_iff.mp here
    have reached : last < (state.view partitionSession).stream.nextDirectReadId :=
      line ▸ late.1 position found stream here
    exact orderly.stops actual yields (stopped (Nat.le_of_lt reached))
      (line ▸ promised position found stream here) reached (State.waiting_eq_nil late.2)
      fun unconfirmed => (settled.unconfirmed unconfirmed).1

abbrev ReachesLate (env : Environment) (state : State) : Prop :=
  Reachable (react env) (fun state input => Promised state input ∧ StopsLate env state input) {} state

theorem orderly_start (partitionSession : Nat) :
    Orderly env partitionSession (State.view {} partitionSession) := by
  refine ⟨fun _ => nofun, ⟨1, ⟨Nat.le_refl 1, Nat.le_refl 1, nofun, ?_⟩, nofun⟩, nofun, nofun⟩
  omega

def OrderlyAt (env : Environment) (partitionSession : Nat) (state : State) : Prop :=
  Placed state ∧ Settled (state.view partitionSession) ∧
    Orderly env partitionSession (state.view partitionSession)

theorem react_orderlyAt (holds : OrderlyAt env partitionSession state)
    (promised : Promised state input) (late : StopsLate env state input) :
    (react env input).wp (.keeping (OrderlyAt env partitionSession)) state := by
  obtain ⟨placed, settled, orderly⟩ := holds
  have led : ∀ handled after, Leads env input handled state after →
      OrderlyAt env partitionSession after :=
    fun _ _ leads => ⟨leads.1, settled.moves (leads.2 _), orderly.react settled promised late leads⟩
  exact Code.wp_mono (react_leads placed promised.once) (fun _ => led _) (fun _ => led _)

/-- If each graceful stop comes when the last response was handled and none is queued, the
stop event is pushed once, after the data of all responses up to the last one. -/
theorem stop_event_follows_data (env : Environment) {state : State} (reached : ReachesLate env state)
    (running : state.running = true) {index last : Nat} {stream : PartitionStream}
    (found : state.streams[index]? = some stream) (stopped : stream.lastDirectReadId = some last) :
    StopsAfter env stream.partitionSession last (state.pushedFor index) := by
  obtain ⟨placed, _, orderly⟩ : OrderlyAt env stream.partitionSession state :=
    reached.invariant ⟨placed_start, settled_start _, orderly_start _⟩
      fun _ _ holds permitted => react_orderlyAt holds permitted.1 permitted.2
  have stops := (orderly.stopped last (by rw [placed.stream_eq found]; exact stopped)).2.2 running
  rwa [State.view, (placed.position_iff found).mpr rfl] at stops

def lateStop : List Input :=
  [.onInitResponse, .onStartPartitionSessionRequest 1 1, .confirmPartitionStreamCreate 0,
    .onDirectReadResponse 0 ⟨1, 1⟩, .onDirectReadDone 0, .onDirectReadResponse 0 ⟨1, 2⟩,
    .onDirectReadDone 0, .onStopPartitionSessionRequest 1 true 2]

theorem stop_event_follows_data_of_two_responses :
    ∃ state, ReachesLate {} state ∧ state.pushedFor 0 = [.start, .data 1, .data 2, .stop] ∧
      StopsAfter {} 1 2 (state.pushedFor 0) := by
  obtain ⟨state, reached, running, pushed, found⟩ : ∃ state, ReachesLate {} state ∧
      state.running = true ∧ state.pushedFor 0 = [.start, .data 1, .data 2, .stop] ∧
      state.streams[0]? = some ⟨1, 1, 3, some 2, true⟩ :=
    exists_reachable lateStop (by decide +kernel)
  exact ⟨state, reached, pushed, stop_event_follows_data {} reached running found rfl⟩

def earlyStop : List Input :=
  [.onInitResponse, .onStartPartitionSessionRequest 1 1, .confirmPartitionStreamCreate 0,
    .onDirectReadResponse 0 ⟨1, 1⟩, .onDirectReadDone 0, .onDirectReadResponse 0 ⟨1, 2⟩,
    .onStopPartitionSessionRequest 1 true 2, .onDirectReadDone 0]

/-- The stop event comes before the data of the last response, and once more after it. -/
theorem stop_event_precedes_queued_data :
    ∃ state, Reachable (react {}) Promised {} state ∧ state.running = true ∧
      state.streams[0]? = some ⟨1, 1, 3, some 2, true⟩ ∧
      state.pushedFor 0 = [.start, .data 1, .stop, .data 2, .stop] ∧
      ¬ StopsAfter {} 1 2 (state.pushedFor 0) := by
  obtain ⟨state, reached, running, found, pushed⟩ : ∃ state, Reachable (react {}) Promised {} state ∧
      state.running = true ∧ state.streams[0]? = some ⟨1, 1, 3, some 2, true⟩ ∧
      state.pushedFor 0 = [.start, .data 1, .stop, .data 2, .stop] :=
    exists_reachable earlyStop (by decide +kernel)
  refine ⟨state, reached, running, found, pushed, ?_⟩
  intro stops
  obtain ⟨earlier, later, split, noEarlier, noLater, _⟩ := stops
  have two := congrArg (List.count .stop) (pushed.symm.trans split)
  rw [count_append, count_cons_self, count_eq_zero.mpr noEarlier,
    count_eq_zero.mpr noLater] at two
  exact absurd two (by decide)

end YdbSdk.Topic.DirectRead
