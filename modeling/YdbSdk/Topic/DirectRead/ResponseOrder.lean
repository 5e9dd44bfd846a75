import YdbSdk.Topic.DirectRead.GracefulStop

namespace YdbSdk.Topic.DirectRead

open YdbSdk.Control YdbSdk.Data List

/-! # The order in which responses are handled

While a partition session moves to another node only when none of its responses waits,
the control session handles its responses in the order of their ids and skips none.
-/

variable {env : Environment} {state : State} {first second : View} {ids handled : List Nat}
  {partitionSession index next id : Nat} {input : Input} {more : List Event}

/-- The responses from `next` on wait in one queue, and reading goes on behind them; a
session that reads while some wait has them in its own queue. -/
def View.InLine (view : View) : Prop :=
  ∃ index count,
    (∀ other, view.queues other =
      if other = index then .range' view.stream.nextDirectReadId count else []) ∧
    ∀ session bound, view.readers session = some bound →
      bound = view.stream.nextDirectReadId + count ∧ (0 < count → session = index)

/-- The responses of a partition session up to its next id were handled, one after the other. -/
structure Lined (ids : List Nat) (view : View) : Prop where
  handled : ∃ count, view.stream.nextDirectReadId = count + 1 ∧ ids = .range' 1 count
  inLine : view.actual → view.InLine

theorem Yields.lined (yields : Yields first more second) (lined : Lined ids first) :
    Lined ids second := by
  refine ⟨yields.stream ▸ lined.handled, fun actual => ?_⟩
  obtain ⟨index, count, waits, reads⟩ := lined.inLine (yields.actual actual)
  refine ⟨index, count, ?_, ?_⟩
  · rw [yields.queues, yields.stream]
    exact waits
  · rw [yields.stream]
    exact fun session bound read => reads session bound (yields.readers _ _ read)

theorem Spares.lined (spares : Spares first second) (lined : Lined ids first) : Lined ids second := by
  obtain ⟨more, yields, _⟩ := spares
  exact yields.lined lined

theorem Lined.begins (lined : Lined ids first) (begins : first.Begins next second)
    (nobody : ∀ index, first.readers index = none) (empty : ∀ index, first.queues index = [])
    (start : first.actual → next = first.stream.nextDirectReadId) : Lined ids second := by
  obtain ⟨index, readers, found, spares⟩ := begins.reader nobody
  have began : Lined ids { first with readers } := by
    refine ⟨lined.handled, fun actual => ⟨index, 0, fun other => ?_, fun session bound read => ?_⟩⟩
    · simp [empty other]
    · exact ⟨(found session bound read).2.trans (start actual), nofun⟩
  exact spares.lined began

theorem Lined.moves (lined : Lined ids first)
    (settled : Settled first) (reads : first.readers source = some next)
    (spares : Spares first middle) (dropped : middle.readers source = none)
    (begins : middle.Begins next second) (empty : ∀ index, first.queues index = []) :
    Lined ids second := by
  have nobody := settled.nobody reads spares dropped
  have still := spares.lined lined
  obtain ⟨more, yields, _⟩ := spares
  refine still.begins begins nobody (yields.queues ▸ empty) fun actual => ?_
  obtain ⟨index, count, waits, readers⟩ := lined.inLine (yields.actual actual)
  have none := (waits index).symm.trans (empty index)
  rw [if_pos rfl, List.range'_eq_nil_iff] at none
  rw [(readers source next reads).1, none, yields.stream]
  rfl

theorem Lined.reads (lined : Lined ids first) (settled : Settled first)
    (expected : first.readers index = some next) : Lined ids (first.read index next) := by
  refine ⟨lined.handled, fun actual => ?_⟩
  obtain ⟨place, count, queue, readers⟩ := lined.inLine actual
  obtain ⟨rfl, ahead⟩ := readers index next expected
  refine ⟨index, count + 1, fun other => ?_, fun session bound read => ?_⟩
  · rw [View.queues_read, queue, queue, View.read, List.range'_1_concat]
    cases count with
    | zero => by_cases same : other = index <;> simp [same]
    | succ count =>
      rw [ahead count.succ_pos]
      by_cases same : other = place <;> simp [same]
  · obtain ⟨session, bound⟩ := settled.reader_read expected read
    exact ⟨by rw [bound]; rfl, fun _ => session⟩

theorem Lined.handles (lined : Lined ids first)
    (waits : first.queues index = id :: rest) (actual : first.actual) :
    Lined (ids ++ [id]) ((first.take index rest).setNext (id + 1)) := by
  obtain ⟨place, count, queue, readers⟩ := lined.inLine actual
  have line := (queue index).symm.trans waits
  -- The response is the first that waits, so its queue is the one in line.
  have ours : index = place := by
    by_contra elsewhere
    simp [elsewhere] at line
  subst ours
  cases count with
  | zero => simp at line
  | succ remaining =>
    rw [if_pos rfl] at line
    obtain ⟨rfl, rfl⟩ := line
    obtain ⟨count, reached, same⟩ := lined.handled
    refine ⟨⟨count + 1, congrArg (· + 1) reached, ?_⟩, fun _ => ⟨index, remaining, fun other => ?_,
      fun session bound read => ?_⟩⟩
    · rw [List.range'_1_concat, ← same, reached, Nat.add_comm]
    · change ((first.take index _).queues other) = _
      rw [View.queues_take, queue other]
      by_cases same : other = index <;> simp [same, View.setNext]
    · obtain ⟨reach, ahead⟩ := readers session bound read
      simp only [View.setNext]
      omega

/-- The responses that the control session processes in a run, until an assertion ends it. -/
def handledFrom (env : Environment) : State → List Input → List Response
  | _, [] => []
  | state, input :: rest =>
    match (react env input).step state with
    | .ok after => state.handles input ++ handledFrom env after rest
    | .error _ => []

/-- A partition session moves when none of its responses waits in the queue of a direct
read session. -/
def MovesDrained (state : State) : Input → Prop
  | .onUpdatePartitionSession partitionSession _ =>
    ∀ session ∈ state.sessions, ∀ response ∈ session.incomingMessages,
      response.partitionSession ≠ partitionSession
  | _ => True

instance (state : State) : (input : Input) → Decidable (StartsOnce state input) := by
  rintro ⟨⟩ <;> dsimp only [StartsOnce] <;> infer_instance

instance (state : State) (input : Input) : Decidable (MovesDrained state input) := by
  unfold MovesDrained
  split <;> infer_instance

theorem Lined.react {after : State} {handled : Nat → List Nat}
    (lined : Lined ids (state.view partitionSession)) (settled : Settled (state.view partitionSession))
    (drained : MovesDrained state input) (leads : Leads env input handled state after) :
    Lined (ids ++ handled partitionSession) (after.view partitionSession) := by
  have moves := leads.2 partitionSession
  generalize handled partitionSession = new at moves ⊢
  cases moves with
  | handles index id rest more waits actual yields quiet handed =>
    exact yields.lined (lined.handles waits actual)
  | spares spares =>
    rw [append_nil]
    exact spares.lined lined
  | confirms once begins =>
    obtain ⟨next, nobody, empty⟩ := settled.unconfirmed once
    rw [append_nil]
    have confirmed : Lined ids (state.view partitionSession).confirm := ⟨lined.handled, lined.inLine⟩
    exact confirmed.begins begins nobody empty fun _ => next.symm
  | moves location source next middle named reads spares dropped begins =>
    subst named
    rw [append_nil]
    exact lined.moves settled reads spares dropped begins (State.waiting_eq_nil drained)
  | reads index next named expected same =>
    rw [append_nil, same]
    exact lined.reads settled expected
  | drops index id rest waits gone same =>
    rw [append_nil, same]
    refine ⟨lined.handled, fun actual => ?_⟩
    exact absurd (settled.confirmed_of_waits waits) (ne_true_of_eq_false (gone actual))
  | stops last stream more named here line actual yields stopped =>
    rw [append_nil]
    have marked : Lined ids ((state.view partitionSession).setLast last) :=
      ⟨lined.handled, lined.inLine⟩
    exact yields.lined marked

theorem idsOf_append (partitionSession : Nat) (first second : List Response) :
    idsOf partitionSession (first ++ second) =
      idsOf partitionSession first ++ idsOf partitionSession second := by
  rw [idsOf, filter_append, map_append]
  rfl

/-- What was handled of the partition session, and what is to be. -/
structure LinedAt (partitionSession : Nat) (ids : List Nat) (state : State) : Prop where
  placed : Placed state
  settled : Settled (state.view partitionSession)
  lined : Lined ids (state.view partitionSession)

theorem react_linedAt (holds : LinedAt partitionSession ids state) (once : StartsOnce state input)
    (drained : MovesDrained state input) :
    (react env input).wp (.keeping (LinedAt partitionSession
      (ids ++ idsOf partitionSession (state.handles input)))) state := by
  have led : ∀ handled after, Leads env input handled state after →
      LinedAt partitionSession (ids ++ handled partitionSession) after :=
    fun _ _ leads => ⟨leads.1, holds.settled.moves (leads.2 _),
      holds.lined.react holds.settled drained leads⟩
  exact Code.wp_mono (react_leads holds.placed once) (fun _ => led _) (fun _ => led _)

theorem lined_start (partitionSession : Nat) : LinedAt partitionSession [] {} := by
  refine ⟨placed_start, settled_start _, ⟨0, rfl, rfl⟩, fun _ => ⟨0, 0, fun other => ?_, nofun⟩⟩
  by_cases here : other = 0
  · simp [State.view, State.waiting, State.session, idsOf]
  · simp [State.view, State.waiting, State.session, idsOf]

theorem LinedAt.run (holds : LinedAt partitionSession ids state)
    (kept : Permitted (react env) (fun state input => StartsOnce state input ∧ MovesDrained state input)
      state inputs) :
    ∃ count, ids ++ idsOf partitionSession (handledFrom env state inputs) = .range' 1 count := by
  induction inputs generalizing state ids with
  | nil =>
    obtain ⟨count, _, inOrder⟩ := holds.lined.handled
    exact ⟨count, (append_nil _).trans inOrder⟩
  | cons input rest ih =>
    have next := @react_linedAt env state ids partitionSession input holds kept.1.1 kept.1.2
    rw [handledFrom]
    cases taken : (react env input).step state with
    | ok after =>
      rw [idsOf_append, ← append_assoc]
      exact ih (Code.wp_step next taken) (kept.2 after taken)
    | error assertion =>
      obtain ⟨count, _, inOrder⟩ := holds.lined.handled
      exact ⟨count, (append_nil _).trans inOrder⟩

/-- If a partition session moves only when none of its responses waits, its responses are
handled in the order of their ids, from the first on and without a gap. -/
theorem responses_handled_in_order (env : Environment) (inputs : List Input)
    (kept : Permitted (react env) (fun state input => StartsOnce state input ∧ MovesDrained state input)
      {} inputs) (partitionSession : Nat) :
    ∃ count, idsOf partitionSession (handledFrom env {} inputs) = .range' 1 count :=
  (lined_start partitionSession).run kept

def drainedMove : List Input :=
  [.onInitResponse, .onStartPartitionSessionRequest 1 1, .confirmPartitionStreamCreate 0,
    .onDirectReadResponse 0 ⟨1, 1⟩, .onDirectReadDone 0, .onUpdatePartitionSession 1 2,
    .onDirectReadResponse 1 ⟨1, 2⟩, .onDirectReadDone 0]

theorem responses_handled_in_order_of_drained_move :
    handledFrom {} {} drainedMove = [⟨1, 1⟩, ⟨1, 2⟩] ∧
      ∃ count, idsOf 1 (handledFrom {} {} drainedMove) = .range' 1 count :=
  ⟨by decide +kernel, responses_handled_in_order {} drainedMove (by decide +kernel) 1⟩

/-- The partition session moves while its first response waits, and the session of the
second node is faster to hand over the second one. -/
def earlyMove : List Input :=
  [.onInitResponse, .onStartPartitionSessionRequest 1 1, .confirmPartitionStreamCreate 0,
    .onDirectReadResponse 0 ⟨1, 1⟩, .onUpdatePartitionSession 1 2, .onDirectReadResponse 1 ⟨1, 2⟩,
    .onDirectReadDone 1, .onDirectReadDone 0]

theorem early_move_reverses_responses :
    Permitted (react {}) StartsOnce {} earlyMove ∧ handledFrom {} {} earlyMove = [⟨1, 2⟩, ⟨1, 1⟩] := by
  decide +kernel

end YdbSdk.Topic.DirectRead
