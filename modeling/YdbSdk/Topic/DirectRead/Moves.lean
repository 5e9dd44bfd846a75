import YdbSdk.Topic.DirectRead.Tracking

namespace YdbSdk.Topic.DirectRead

open YdbSdk.Control YdbSdk.Data

/-! # How a partition session moves

Every event moves what concerns a partition session in one of a few ways, or spares it. -/

variable {env : Environment} {first second third : View} {partitionSession index next : Nat}
  {input : Input}

def View.Begins (next : Nat) (before after : View) : Prop :=
  ∃ index readers, (∀ other found, readers other = some found →
      other = index ∧ found = next ∨ before.readers other = some found) ∧
    Spares { before with readers } after

def View.read (view : View) (index next : Nat) : View :=
  { view with
    readers := Function.update view.readers index (some (next + 1))
    queues := Function.update view.queues index (view.queues index ++ [next]) }

def View.take (view : View) (index : Nat) (rest : List Nat) : View :=
  { view with queues := Function.update view.queues index rest }

@[simp] theorem View.queues_read (view : View) (index next other : Nat) :
    (view.read index next).queues other =
      if other = index then view.queues index ++ [next] else view.queues other :=
  Function.update_apply _ _ _ _

@[simp] theorem View.queues_take (view : View) (index other : Nat) (rest : List Nat) :
    (view.take index rest).queues other = if other = index then rest else view.queues other :=
  Function.update_apply _ _ _ _

def View.setNext (view : View) (next : Nat) : View :=
  { view with stream := { view.stream with nextDirectReadId := next } }

def View.confirm (view : View) : View :=
  { view with stream := { view.stream with confirmed := true } }

def View.setLast (view : View) (last : Nat) : View :=
  { view with stream := { view.stream with lastDirectReadId := some last } }

/-- `found` is the stream that the partition session is found with, and the list has the id of
the response that the event handles. -/
inductive Moves (env : Environment) (partitionSession : Nat) (input : Input)
    (found : Option PartitionStream) (before after : View) : List Nat → Prop where
  | spares (spares : Spares before after) : Moves env partitionSession input found before after []
  | confirms (once : before.stream.confirmed = false) (begins : before.confirm.Begins 1 after) :
      Moves env partitionSession input found before after []
  | moves (location source next : Nat) (middle : View)
      (named : input = .onUpdatePartitionSession partitionSession location)
      (reads : before.readers source = some next) (spares : Spares before middle)
      (dropped : middle.readers source = none) (begins : middle.Begins next after) :
      Moves env partitionSession input found before after []
  | reads (index next : Nat) (named : input = .onDirectReadResponse index ⟨partitionSession, next⟩)
      (expected : before.readers index = some next) (same : after = before.read index next) :
      Moves env partitionSession input found before after []
  | handles (index id : Nat) (rest : List Nat) (more : List Event)
      (waits : before.queues index = id :: rest) (actual : before.actual)
      (yields : Yields ((before.take index rest).setNext (id + 1)) more after)
      (quiet : before.stream.lastDirectReadId = none → .stop ∉ more)
      (handed : after.running = true → env.payload partitionSession id = .data → .data id ∈ more) :
      Moves env partitionSession input found before after [id]
  | drops (index id : Nat) (rest : List Nat) (waits : before.queues index = id :: rest)
      (gone : before.actual → before.stream.confirmed = false)
      (same : after = before.take index rest) :
      Moves env partitionSession input found before after []
  | stops (last : Nat) (stream : PartitionStream) (more : List Event)
      (named : input = .onStopPartitionSessionRequest partitionSession true last)
      (here : found = some stream) (line : before.stream = stream.line) (actual : before.actual)
      (yields : Yields (before.setLast last) more after)
      (stopped : last ≤ before.stream.nextDirectReadId → after.running = true → more = [.stop]) :
      Moves env partitionSession input found before after []

theorem Spares.with_readers (spares : Spares first second) (readers : Nat → Option Nat) :
    Spares { first with readers } { second with readers } := by
  obtain ⟨more, yields, quiet⟩ := spares
  exact ⟨more, { yields with readers := fun _ _ => id }, quiet⟩

theorem Spares.begins (spares : Spares first second) (begins : second.Begins next third) :
    first.Begins next third := by
  obtain ⟨index, readers, found, later⟩ := begins
  refine ⟨index, readers, fun other bound here => ?_, (spares.with_readers readers).trans later⟩
  obtain ⟨more, yields, _⟩ := spares
  exact (found other bound here).imp_right (yields.readers other bound)

theorem View.Begins.spares (begins : first.Begins next second) (spares : Spares second third) :
    first.Begins next third := by
  obtain ⟨index, readers, found, later⟩ := begins
  exact ⟨index, readers, found, later.trans spares⟩

/-! ## Who reads a partition session -/

def View.Untouched (view : View) : Prop :=
  (∀ index, view.readers index = none) ∧ ∀ index, view.queues index = []

/-- One session reads a partition session, and none before it is confirmed. -/
structure Settled (view : View) : Prop where
  unique : ∀ first second next other, view.readers first = some next →
    view.readers second = some other → first = second
  unconfirmed : view.stream.confirmed = false →
    view.stream.nextDirectReadId = 1 ∧ view.Untouched

theorem Yields.untouched (yields : Yields first more second)
    (untouched : first.Untouched) : second.Untouched := by
  refine ⟨fun index => Option.eq_none_iff_forall_ne_some.mpr fun next found => ?_, ?_⟩
  · have before := yields.readers index next found
    simp [untouched.1 index] at before
  · rw [yields.queues]
    exact untouched.2

theorem Yields.settled (yields : Yields first more second)
    (settled : Settled first) : Settled second := by
  refine ⟨fun one other next bound read alsoRead => ?_, fun unconfirmed => ?_⟩
  · exact settled.unique one other next bound (yields.readers _ _ read) (yields.readers _ _ alsoRead)
  · rw [yields.stream] at unconfirmed ⊢
    obtain ⟨next, untouched⟩ := settled.unconfirmed unconfirmed
    exact ⟨next, yields.untouched untouched⟩

theorem Settled.confirmed (settled : Settled first) (read : first.readers index = some next) :
    first.stream.confirmed = true := by
  cases confirmed : first.stream.confirmed with
  | true => rfl
  | false => simp [(settled.unconfirmed confirmed).2.1 index] at read

theorem Settled.confirmed_of_waits {id : Nat} (settled : Settled first)
    (waits : first.queues index = id :: rest) : first.stream.confirmed = true := by
  cases confirmed : first.stream.confirmed with
  | true => rfl
  | false => simp [(settled.unconfirmed confirmed).2.2 index] at waits

theorem Settled.nobody (settled : Settled first) (reads : first.readers index = some next)
    (spares : Spares first second) (dropped : second.readers index = none) (other : Nat) :
    second.readers other = none := by
  obtain ⟨more, yields, _⟩ := spares
  refine Option.eq_none_iff_forall_ne_some.mpr fun bound found => ?_
  have same := settled.unique _ _ _ _ (yields.readers other bound found) reads
  simp [same, dropped] at found

theorem Settled.reader_read (settled : Settled first)
    (expected : first.readers index = some next)
    (read : (first.read index next).readers session = some bound) :
    session = index ∧ bound = next + 1 := by
  by_cases here : session = index
  · subst here
    simpa [View.read, eq_comm] using read
  · simp only [View.read, ne_eq, here, not_false_eq_true, Function.update_of_ne] at read
    exact absurd (settled.unique _ _ _ _ read expected) here

theorem View.Begins.reader (begins : first.Begins next second)
    (nobody : ∀ index, first.readers index = none) :
    ∃ index readers, (∀ other found, readers other = some found → other = index ∧ found = next) ∧
      Spares { first with readers } second := by
  obtain ⟨index, readers, found, spares⟩ := begins
  refine ⟨index, readers, fun other bound here => (found other bound here).resolve_right ?_, spares⟩
  rw [nobody other]
  exact nofun

theorem Settled.begins (begins : first.Begins next second)
    (nobody : ∀ index, first.readers index = none) (confirmed : first.stream.confirmed = true) :
    Settled second := by
  obtain ⟨index, readers, found, more, yields, _⟩ := begins.reader nobody
  refine yields.settled ⟨fun one other next bound read alsoRead => ?_, fun unconfirmed => ?_⟩
  · rw [(found one next read).1, (found other bound alsoRead).1]
  · simp [confirmed] at unconfirmed

theorem Settled.moves (settled : Settled first)
    (moves : Moves env partitionSession input found first second ids) : Settled second := by
  cases moves with
  | spares spares =>
    obtain ⟨more, yields, _⟩ := spares
    exact yields.settled settled
  | confirms once begins => exact .begins begins (settled.unconfirmed once).2.1 rfl
  | moves location source next middle named reads spares dropped begins =>
    refine .begins begins (settled.nobody reads spares dropped) ?_
    obtain ⟨more, yields, _⟩ := spares
    exact yields.stream ▸ settled.confirmed reads
  | reads index next named expected same =>
    subst same
    refine ⟨fun one other bound found read alsoRead => ?_, fun unconfirmed => ?_⟩
    · rw [(settled.reader_read expected read).1, (settled.reader_read expected alsoRead).1]
    · exact absurd (settled.confirmed expected) (ne_true_of_eq_false unconfirmed)
  | handles index id rest more waits actual yields quiet handed =>
    refine yields.settled ⟨settled.unique, fun unconfirmed => ?_⟩
    exact absurd (settled.confirmed_of_waits waits) (ne_true_of_eq_false unconfirmed)
  | drops index id rest waits gone same =>
    subst same
    refine ⟨settled.unique, fun unconfirmed => ?_⟩
    exact absurd (settled.confirmed_of_waits waits) (ne_true_of_eq_false unconfirmed)
  | stops last stream more named here line actual yields stopped =>
    exact yields.settled ⟨settled.unique, settled.unconfirmed⟩

end YdbSdk.Topic.DirectRead
